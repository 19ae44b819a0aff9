import ApiScaffold.Client.Literal
import ApiScaffold.Proofs.Text.Infix
import ApiScaffold.Proofs.Text.Pieces

namespace ApiScaffold
open Text

namespace Text

section Pairs
variable {α : Type} [DecidableEq α] {a b c : α} {new t : List α}

/-- What a pair is replaced by begins as the pair does. -/
theorem head?_replacePair_cons : (replacePair a b (a :: new) t).head? = t.head? := by
  fun_cases replacePair a b (a :: new) t with
  | case1 x y rest h => simp [h.1]
  | case2 x y rest h => rfl
  | case3 x => rfl
  | case4 => rfl

/-- Where something is put between the two of every pair, no pair is left. -/
theorem not_pair_infix_replacePair (hab : a ≠ b) (hca : c ≠ a) (hcb : c ≠ b) :
    ¬ [a, b] <:+: replacePair a b [a, c, b] t := by
  fun_induction replacePair a b [a, c, b] t with
  | case1 x y rest h ih => simp [List.infix_cons_iff, hab, hca.symm, hcb.symm, ih]
  | case2 x y rest h ih =>
    have hpair : ¬ [a, b] <+: x :: replacePair a b [a, c, b] (y :: rest) := by
      rw [List.cons_prefix_cons, List.singleton_prefix_iff_head?_eq_some, head?_replacePair_cons]
      rintro ⟨rfl, hy⟩
      exact h ⟨rfl, by simpa using hy⟩
    rw [List.infix_cons_iff, or_iff_right hpair]
    exact ih
  | case3 x => simp [List.infix_cons_iff]
  | case4 => simp

end Pairs

variable {part s t : Text}

theorem seam_of_getLast (h : ∀ c ∈ s.getLast?, c ∉ part) : Seam part s t :=
  fun c hc _ _ hm => absurd hm (h c hc)

theorem isInfix_trim (t : Text) : trim t <:+: t := by
  obtain ⟨cut, -, hcut⟩ := dropLastWhile_append isBlank (trimStart t)
  have hend : trim t <+: trimStart t := ⟨cut, hcut.symm⟩
  exact hend.isInfix.trans (List.dropWhile_suffix isBlank).isInfix

end Text

namespace Client
variable {s line : Text}

/-- What ends a comment. -/
def commentEnd : Text :=
  "*/"

theorem not_infix_of_mem_commentBody (h : line ∈ commentBody s) : ¬ commentEnd <:+: line := by
  obtain ⟨raw, hraw, rfl⟩ := List.mem_map.mp (List.mem_filter.mp h).1
  intro hi
  have hline : commentEnd <:+: raw := hi.trans (isInfix_trim raw)
  have htext := (infix_iff_exists_line (by decide) (by decide)).mpr ⟨raw, hraw, hline⟩
  exact not_pair_infix_replacePair (by decide) (by decide) (by decide) htext

/-- What stands between the opening and the end of a comment: it is set off on both sides, and the
end does not stand in it. -/
structure Enclosed (inner : Text) : Prop where
  head : ∃ c, inner.head? = some c ∧ c ∉ commentEnd
  last : ∃ c, inner.getLast? = some c ∧ c ∉ commentEnd
  free : ¬ commentEnd <:+: inner

theorem joined_docComment_enclosed (s : Text) :
    docComment s = [] ∨ ∃ inner, joined "\n" (docComment s) = "/**" ++ (inner ++ commentEnd) ∧
      Enclosed inner := by
  have hbody : ∀ line ∈ commentBody s, ¬ commentEnd <:+: line :=
    fun line h => not_infix_of_mem_commentBody h
  unfold docComment
  generalize commentBody s = lines at hbody
  rcases lines with _ | ⟨line, _ | ⟨next, more⟩⟩
  · exact .inl rfl
  · refine .inr ⟨" " ++ line ++ " ", by simp [joined, commentEnd, ofString, ofChars],
      ⟨.char ' ', rfl, by decide⟩, ⟨.char ' ', List.getLast?_concat, by decide⟩, ?_⟩
    rw [infix_append_iff_left (by decide) (by decide), infix_append_iff_right (by decide)
      (by decide)]
    exact hbody line List.mem_cons_self
  · let middle : Text := ((line :: next :: more).map (ofString " * " ++ ·)).flatMap
      ([.char '\n'] ++ ·)
    have hmiddle : ¬ commentEnd <:+: middle := by
      rw [infix_flatMap_iff (by decide) (by decide)]
      rintro ⟨_, hm, hi⟩
      obtain ⟨inner, hinner, rfl⟩ := List.mem_map.mp hm
      rw [(seam_of_getLast (by decide)).infix_append_iff (by decide)] at hi
      exact hi.elim (by decide) (hbody inner hinner)
    have hlast : (middle ++ ofString "\n" ++ ofString " ").getLast? = some (.char ' ') :=
      List.getLast?_concat
    refine .inr ⟨middle ++ "\n ", ?_, ⟨.char '\n', rfl, by decide⟩, ⟨.char ' ', ?_, by decide⟩, ?_⟩
    · simp [joined, intercalate_cons_eq_append_flatMap, middle, commentEnd, ofString, ofChars]
    · rwa [List.append_assoc] at hlast
    · rw [infix_append_iff_left (by decide) (by decide)]
      exact hmiddle

/-- Nothing of the end stands across the marks around an enclosed text. -/
theorem Enclosed.seam_opening {inner : Text} (h : Enclosed inner) (opening rest : Text) :
    Seam commentEnd opening (inner ++ rest) := by
  obtain ⟨c, hc, hout⟩ := h.head
  refine seam_of_head fun y hy => ?_
  rw [List.head?_append, hc] at hy
  cases hy
  exact hout

/-- A comment is opened once and closed at its end. -/
theorem joined_docComment (s : Text) :
    docComment s = [] ∨ ∃ body, joined "\n" (docComment s) = "/*" ++ (body ++ commentEnd) ∧
      ¬ commentEnd <:+: body := by
  refine (joined_docComment_enclosed s).imp_right ?_
  rintro ⟨inner, htext, hinner⟩
  refine ⟨"*" ++ inner, htext, ?_⟩
  have hseam := hinner.seam_opening "*" []
  rw [List.append_nil] at hseam
  rw [hseam.infix_append_iff (by decide), not_or]
  exact ⟨by decide, hinner.free⟩

end Client
end ApiScaffold
