import ApiScaffold.Proofs.Sql.FunctionLines

namespace ApiScaffold
open Text

namespace Text

section Ends
variable {α : Type} {p : α → Bool} {a b : α}

/-- What ends in something else loses nothing. -/
theorem dropLastWhile_concat (h : p a = false) (s : List α) :
    dropLastWhile p (s ++ [a]) = s ++ [a] := by
  induction s with
  | nil => simp [dropLastWhile, h]
  | cons x s ih =>
    rw [List.cons_append, dropLastWhile, ih]
    split
    · rename_i hnil
      simp at hnil
    · rfl

variable [DecidableEq α] {new : List α}

theorem replacePair_of_not_mem {t : List α} (h : a ∉ t) : replacePair a b new t = t := by
  fun_induction replacePair a b new t with
  | case1 x y rest hxy ih => exact absurd (hxy.1 ▸ List.mem_cons_self) h
  | case2 x y rest hxy ih => rw [ih fun hm => h (List.mem_cons_of_mem _ hm)]
  | case3 x => rfl
  | case4 => rfl

/-- What ends no pair stays at the end. -/
theorem replacePair_concat {c : α} (hc : c ≠ b) (t : List α) :
    replacePair a b new (t ++ [c]) = replacePair a b new t ++ [c] := by
  fun_induction replacePair a b new t with
  | case1 x y rest hxy ih => simp [replacePair, hxy, ih]
  | case2 x y rest hxy ih =>
    rw [List.cons_append, List.cons_append, replacePair, if_neg hxy, ← List.cons_append, ih]
    rfl
  | case3 x => simp [replacePair, hc]
  | case4 => rfl

end Ends

section Lines
variable {t : Text} {c : CodePoint}

theorem splitLines_of_unbroken (hne : t ≠ []) (h : ∀ p ∈ t, p.is isLineBreak = false) :
    splitLines t = [t] := by
  fun_induction splitLines t with
  | case1 => exact absurd rfl hne
  | case2 rest ih => exact absurd (h _ List.mem_cons_self) (by decide)
  | case3 p rest _ hb ih => exact absurd (h p List.mem_cons_self) (by simp [hb])
  | case4 p rest _ hb hrest ih => rw [splitLines_eq_nil hrest]
  | case5 p rest _ hb l m hrest ih =>
    have hcons : rest ≠ [] := by
      rintro rfl
      cases hrest
    rw [ih hcons fun q hq => h q (List.mem_cons_of_mem _ hq)] at hrest
    cases hrest
    rfl

/-- What breaks no line ends the last one. -/
theorem splitLines_concat (hc : c.is isLineBreak = false) (t : Text) :
    ∃ before line, splitLines (t ++ [c]) = before ++ [line ++ [c]] := by
  have hpair {p : CodePoint} {rest : Text}
      (h : ∀ r : Text, p = .char '\r' → rest = .char '\n' :: r → False) :
      ∀ r : Text, p = .char '\r' → rest ++ [c] = .char '\n' :: r → False := by
    intro r hp he
    cases rest with
    | nil =>
      cases he
      cases hc
    | cons q rest =>
      cases he
      exact h rest hp rfl
  fun_induction splitLines t with
  | case1 => exact ⟨[], [], by simp [splitLines, hc]⟩
  | case2 rest ih =>
    obtain ⟨before, line, hrest⟩ := ih
    exact ⟨[] :: before, line, by simp [splitLines, hrest]⟩
  | case3 p rest hcr hb ih =>
    obtain ⟨before, line, hrest⟩ := ih
    refine ⟨[] :: before, line, ?_⟩
    rw [List.cons_append, splitLines, if_pos hb, hrest]
    · rfl
    · exact hpair hcr
  | case4 p rest hcr hb hrest ih =>
    obtain rfl := splitLines_eq_nil hrest
    refine ⟨[], [p], ?_⟩
    rw [List.cons_append, splitLines, if_neg hb]
    · simp [splitLines, hc]
    · exact hpair hcr
  | case5 p rest hcr hb l m hrest ih =>
    obtain ⟨before, line, hmore⟩ := ih
    rw [List.cons_append, splitLines, if_neg hb, hmore]
    · cases before with
      | nil => exact ⟨[], p :: line, rfl⟩
      | cons first before => exact ⟨(p :: first) :: before, line, rfl⟩
    · exact hpair hcr

end Lines

end Text

namespace Sql
variable {text : Text} {c : CodePoint}

/-- A text on one line and without dollars is kept as it is. -/
theorem commentLines_of_plain (hdollar : .char '$' ∉ text)
    (hbreak : ∀ p ∈ text, p.is isLineBreak = false)
    (hlast : ∃ s d, text = s ++ [d] ∧ isBlank d = false) :
    commentLines text = [Text.ofString "-- " ++ text] := by
  obtain ⟨s, d, rfl, hd⟩ := hlast
  have hne : s ++ [d] ≠ [] := by simp
  rw [commentLines, replacePair_of_not_mem hdollar, splitLines_of_unbroken hne hbreak]
  simp only [List.isEmpty_cons, Bool.false_eq_true, if_false, List.map_cons, List.map_nil, trimEnd]
  rw [← List.append_assoc, dropLastWhile_concat hd]

/-- The last line of a comment ends as its text does. -/
theorem getLast?_commentLines (h : text.getLast? = some c) (hdollar : c ≠ .char '$')
    (hbreak : c.is isLineBreak = false) (hblank : isBlank c = false) :
    ∃ line, (commentLines text).getLast? = some line ∧ line.getLast? = some c := by
  obtain ⟨s, rfl⟩ := List.getLast?_eq_some_iff.mp h
  obtain ⟨before, line, hlines⟩ := splitLines_concat hbreak
    (replacePair (.char '$') (.char '$') "$ $" s)
  refine ⟨"-- " ++ line ++ [c], ?_, List.getLast?_concat⟩
  rw [commentLines, replacePair_concat hdollar, hlines]
  simp [trimEnd, ← List.append_assoc, dropLastWhile_concat hblank]

end Sql
end ApiScaffold
