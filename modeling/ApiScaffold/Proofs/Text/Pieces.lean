import ApiScaffold.Text.Replace

namespace ApiScaffold.Text
variable {α : Type} {sep : α} {ls : List (List α)}

theorem pieces_eq_splitOn [DecidableEq α] (sep : α) (t : List α) : pieces sep t = t.splitOn sep := by
  induction t with
  | nil => rfl
  | cons a rest ih =>
    rw [pieces, ih, List.splitOn_cons_eq_if_modifyHead]
    by_cases h : a = sep
    · simp [h]
    · obtain ⟨l, ls, hl⟩ := List.exists_cons_of_ne_nil (List.splitOn_ne_nil sep rest)
      simp [h, hl]

/-- Lines that are joined can be told apart again if none holds the separator. -/
theorem pieces_joined [DecidableEq α] (h : ∀ l ∈ ls, sep ∉ l) (hne : ls ≠ []) :
    pieces sep ([sep].intercalate ls) = ls := by
  rw [pieces_eq_splitOn]
  exact List.splitOn_intercalate sep h hne

/-- What follows a separator is cut apart on its own. -/
theorem pieces_append_cons [DecidableEq α] (sep : α) (s t : List α) :
    pieces sep (s ++ sep :: t) = pieces sep s ++ pieces sep t := by
  simp only [pieces_eq_splitOn, List.splitOn]
  exact List.splitOnP_append_cons s t (beq_self_eq_true sep)

theorem intercalate_cons_eq_append_flatMap (between l : List α) (ls : List (List α)) :
    between.intercalate (l :: ls) = l ++ ls.flatMap (between ++ ·) := by
  induction ls generalizing l with
  | nil => simp
  | cons m ls ih => rw [List.intercalate_cons_cons, ih, List.flatMap_cons]; simp

theorem nil_intercalate (ls : List (List α)) : ([] : List α).intercalate ls = ls.flatten := by
  cases ls with
  | nil => rfl
  | cons l ls => simp [intercalate_cons_eq_append_flatMap]

/-- The first piece opens the text, and a separator follows it. -/
theorem eq_or_append_of_pieces [DecidableEq α] {s first : List α} {more : List (List α)}
    (h : pieces sep s = first :: more) : s = first ∨ ∃ rest, s = first ++ sep :: rest := by
  have hjoined : [sep].intercalate (pieces sep s) = s := by
    rw [pieces_eq_splitOn, List.intercalate_splitOn]
  rw [h] at hjoined
  cases more with
  | nil => exact .inl (by simpa using hjoined.symm)
  | cons next more =>
    rw [List.intercalate_cons_cons] at hjoined
    exact .inr ⟨_, by simpa using hjoined.symm⟩

/-- What is not the first of the pair, or has not the second behind it, stays. -/
theorem replacePair_cons [DecidableEq α] {a b x : α} {s : List α} (h : x = a → s.head? ≠ some b)
    (new : List α) : replacePair a b new (x :: s) = x :: replacePair a b new s := by
  cases s with
  | nil => rfl
  | cons y rest =>
    have hpair : ¬ (x = a ∧ y = b) := by
      intro hxy
      exact h hxy.1 (congrArg some hxy.2)
    rw [replacePair, if_neg hpair]

/-- A replacement leaves its trace. -/
theorem eq_of_replacePair [DecidableEq α] {a b c : α} {s t : List α}
    (h : replacePair a b [c] s = t) (hc : c ∉ t) : s = t := by
  induction s using replacePair.induct (a := a) (b := b) generalizing t with
  | case1 x y rest hxy ih =>
    rw [replacePair, if_pos hxy] at h
    exact absurd (h ▸ List.mem_cons_self) hc
  | case2 x y rest hxy ih =>
    rw [replacePair, if_neg hxy] at h
    subst h
    rw [← ih rfl fun hm => hc (List.mem_cons_of_mem _ hm)]
  | case3 x => exact h
  | case4 => exact h

end ApiScaffold.Text
