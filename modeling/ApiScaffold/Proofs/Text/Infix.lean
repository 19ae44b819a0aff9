import ApiScaffold.Text.Blank
import ApiScaffold.Text.Lines
import ApiScaffold.Text.Replace
import Mathlib.Data.List.Infix

namespace ApiScaffold.Text
section Parts
variable {α : Type} {part s t : List α} {i : Nat}

/-- The part stands in the list from the place `i` on. -/
def StandsAt (part t : List α) (i : Nat) : Prop :=
  part <+: t.drop i

instance [DecidableEq α] : Decidable (StandsAt part t i) :=
  inferInstanceAs (Decidable (part <+: t.drop i))

theorem exists_standsAt_iff : (∃ i, StandsAt part t i) ↔ part <:+: t := by
  induction t with
  | nil => simp [StandsAt]
  | cons x t ih =>
    rw [List.infix_cons_iff, ← ih]
    constructor
    · rintro ⟨_ | i, hi⟩
      · exact .inl hi
      · exact .inr ⟨i, hi⟩
    · rintro (h | ⟨i, hi⟩)
      · exact ⟨0, h⟩
      · exact ⟨i + 1, hi⟩

theorem lt_length_of_standsAt (hne : part ≠ []) (h : StandsAt part t i) : i < t.length := by
  rcases Nat.lt_or_ge i t.length with hl | hl
  · exact hl
  · rw [StandsAt, List.drop_eq_nil_of_le hl, List.prefix_nil] at h
    exact absurd h hne

/-- One of the two items at the seam of the lists is none of the part. -/
def Seam (part s t : List α) : Prop :=
  ∀ x ∈ s.getLast?, ∀ y ∈ t.head?, x ∈ part → y ∉ part

theorem Seam.prefix_append_iff (h : Seam part s t) (hs : s ≠ []) :
    part <+: s ++ t ↔ part <+: s := by
  constructor
  · intro hp
    rcases Nat.le_total part.length s.length with hl | hl
    · exact List.prefix_of_prefix_length_le hp (List.prefix_append s t) hl
    · obtain ⟨u, rfl⟩ := List.prefix_of_prefix_length_le (List.prefix_append s t) hp hl
      cases u with
      | nil => simp
      | cons y u =>
        obtain ⟨v, hv⟩ := (List.prefix_append_right_inj s).mp hp
        have hy := h (s.getLast hs) (List.getLast?_eq_some_getLast hs) y (by simp [← hv])
        exact absurd (by simp) (hy (by simp))
  · intro hp
    exact hp.trans (List.prefix_append s t)

/-- A part is not found across a seam, so it stands on one of its sides. -/
theorem Seam.standsAt_append_iff (h : Seam part s t) (hne : part ≠ []) :
    StandsAt part (s ++ t) i ↔ StandsAt part s i ∨ ∃ j, i = s.length + j ∧ StandsAt part t j := by
  induction s generalizing i with
  | nil => simp [StandsAt, hne]
  | cons x s ih =>
    cases i with
    | zero =>
      have hzero : ¬ ∃ j, 0 = (x :: s).length + j ∧ StandsAt part t j := by
        rintro ⟨j, hj, -⟩
        simp only [List.length_cons] at hj
        omega
      rw [or_iff_left hzero]
      exact h.prefix_append_iff (List.cons_ne_nil x s)
    | succ i =>
      have htail : Seam part s t := by
        intro z hz
        exact h z (by simp_all [List.getLast?_cons])
      rw [show StandsAt part (x :: s ++ t) (i + 1) ↔ StandsAt part (s ++ t) i from Iff.rfl,
        ih htail, List.length_cons]
      refine or_congr Iff.rfl (exists_congr fun j => and_congr_left' ?_)
      omega

theorem Seam.infix_append_iff (h : Seam part s t) (hne : part ≠ []) :
    part <:+: s ++ t ↔ part <:+: s ∨ part <:+: t := by
  simp only [← exists_standsAt_iff, h.standsAt_append_iff hne, exists_or]
  refine or_congr Iff.rfl ⟨?_, ?_⟩
  · rintro ⟨_, j, -, hj⟩
    exact ⟨j, hj⟩
  · rintro ⟨j, hj⟩
    exact ⟨_, j, rfl, hj⟩

theorem seam_of_head (h : ∀ y ∈ t.head?, y ∉ part) : Seam part s t :=
  fun _ _ y hy _ => h y hy

/-- Nothing of the part is found in the list. -/
def Free (part t : List α) : Prop :=
  ∀ x ∈ t, x ∉ part

instance [DecidableEq α] : Decidable (Free part t) :=
  inferInstanceAs (Decidable (∀ x ∈ t, x ∉ part))

theorem Free.not_occurs (h : Free part t) (hne : part ≠ []) : ¬ part <:+: t := by
  intro hi
  obtain ⟨x, rest, rfl⟩ := List.exists_cons_of_ne_nil hne
  exact h x (hi.subset List.mem_cons_self) List.mem_cons_self

theorem Free.not_standsAt (h : Free part t) (hne : part ≠ []) : ¬ StandsAt part t i :=
  fun hi => h.not_occurs hne (exists_standsAt_iff.mp ⟨i, hi⟩)

theorem Free.seam (h : Free part s) : Seam part s t :=
  fun x hx _ _ hm => absurd hm (h x (List.mem_of_getLast? hx))

theorem infix_append_iff_right (hs : Free part s) (hne : part ≠ []) :
    part <:+: s ++ t ↔ part <:+: t := by
  rw [hs.seam.infix_append_iff hne]
  exact or_iff_right (hs.not_occurs hne)

theorem infix_append_iff_left (ht : Free part t) (hne : part ≠ []) :
    part <:+: s ++ t ↔ part <:+: s := by
  rw [(seam_of_head fun x hx => ht x (List.mem_of_head? hx)).infix_append_iff hne]
  exact or_iff_left (ht.not_occurs hne)

theorem infix_between_iff {u : List α} (hs : Free part s) (hu : Free part u) (hne : part ≠ []) :
    part <:+: s ++ t ++ u ↔ part <:+: t := by
  rw [infix_append_iff_left hu hne, infix_append_iff_right hs hne]

theorem Free.append (hs : Free part s) (ht : Free part t) : Free part (s ++ t) := by
  intro x hx
  rcases List.mem_append.mp hx with hx | hx
  · exact hs x hx
  · exact ht x hx

theorem infix_cons_iff_of_not_mem {x : α} (hx : x ∉ part) (hne : part ≠ []) :
    part <:+: x :: t ↔ part <:+: t :=
  infix_append_iff_right (s := [x]) (by simpa [Free] using hx) hne

/-- A part that holds no separator lies within one of the separated lists. -/
theorem infix_flatMap_iff {sep : α} {ls : List (List α)} (hsep : sep ∉ part) (hne : part ≠ []) :
    part <:+: ls.flatMap ([sep] ++ ·) ↔ ∃ l ∈ ls, part <:+: l := by
  induction ls with
  | nil => simp [hne]
  | cons l ls ih =>
    have hseam : Seam part ([sep] ++ l) (ls.flatMap ([sep] ++ ·)) := by
      apply seam_of_head
      cases ls <;> simp [hsep]
    rw [List.flatMap_cons, hseam.infix_append_iff hne, ih, List.singleton_append,
      infix_cons_iff_of_not_mem hsep hne]
    simp

end Parts

section Pairs
variable {α : Type} [DecidableEq α] {a b : α} {t : List α}

theorem head?_replacePair : (replacePair a a [a, b, a] t).head? = t.head? := by
  fun_cases replacePair a a [a, b, a] t with
  | case1 x y rest h => simp [h.1]
  | case2 x y rest h => rfl
  | case3 x => rfl
  | case4 => rfl

/-- Breaking up pairs from the left leaves a pair behind wherever three stand in a row. -/
theorem pair_infix_replacePair_iff (hab : b ≠ a) :
    [a, a] <:+: replacePair a a [a, b, a] t ↔ [a, a, a] <:+: t := by
  fun_induction replacePair a a [a, b, a] t with
  | case1 x y rest h ih =>
    obtain ⟨rfl, rfl⟩ := h
    have hhead : [y] <+: replacePair y y [y, b, y] rest ↔ [y] <+: rest := by
      simp only [List.singleton_prefix_iff_head?_eq_some, head?_replacePair]
    have hpair : [y, y] <:+: [y, b, y] ++ replacePair y y [y, b, y] rest ↔
        [y] <+: rest ∨ [y, y, y] <:+: rest := by
      simp [List.infix_cons_iff, hab.symm, hhead, ih]
    have htriple : [y, y, y] <:+: y :: y :: rest ↔ [y] <+: rest ∨ [y, y, y] <:+: rest := by
      simp only [List.infix_cons_iff, List.cons_prefix_cons, true_and]
      constructor
      · rintro (h | h | h)
        · exact .inl h
        · exact .inl ((List.prefix_append [y] [y]).trans h)
        · exact .inr h
      · exact Or.imp_right .inr
    rw [hpair, htriple]
  | case2 x y rest h ih =>
    have hpair : ¬ [a, a] <+: x :: replacePair a a [a, b, a] (y :: rest) := by
      rw [List.cons_prefix_cons, List.singleton_prefix_iff_head?_eq_some, head?_replacePair]
      rintro ⟨rfl, hy⟩
      exact h ⟨rfl, by simpa using hy⟩
    have htriple : ¬ [a, a, a] <+: x :: y :: rest := by
      simp only [List.cons_prefix_cons]
      rintro ⟨rfl, rfl, -⟩
      exact h ⟨rfl, rfl⟩
    have hrest : [a, a, a] <:+: x :: y :: rest ↔ [a, a, a] <:+: y :: rest := by
      rw [List.infix_cons_iff, or_iff_right htriple]
    rw [List.infix_cons_iff, or_iff_right hpair, ih, hrest]
  | case3 x => simp [List.infix_cons_iff]
  | case4 => simp

end Pairs

section Ends
variable {α : Type} {p : α → Bool} {part t : List α}

/-- What is cut off the end is all of the class. -/
theorem dropLastWhile_append (p : α → Bool) (t : List α) :
    ∃ cut, (∀ a ∈ cut, p a = true) ∧ t = dropLastWhile p t ++ cut := by
  induction t with
  | nil => exact ⟨[], by simp, rfl⟩
  | cons a rest ih =>
    obtain ⟨cut, hc, he⟩ := ih
    rw [dropLastWhile]
    split
    · rename_i hk
      rw [hk, List.nil_append] at he
      split
      · rename_i ha
        refine ⟨a :: cut, ?_, by rw [List.nil_append, ← he]⟩
        intro b hb
        rcases List.mem_cons.mp hb with rfl | hb
        · exact ha
        · exact hc b hb
      · exact ⟨cut, hc, by rw [he, List.singleton_append]⟩
    · exact ⟨cut, hc, by rw [List.cons_append, ← he]⟩

theorem dropLastWhile_cons {a : α} (h : p a = false) :
    dropLastWhile p (a :: t) = a :: dropLastWhile p t := by
  rw [dropLastWhile]
  split
  · rename_i hk
    simp [h, hk]
  · rfl

theorem dropLastWhile_of_forall (h : ∀ a ∈ t, p a = false) : dropLastWhile p t = t := by
  induction t with
  | nil => rfl
  | cons a t ih =>
    obtain ⟨ha, ht⟩ := List.forall_mem_cons.mp h
    rw [dropLastWhile_cons ha, ih ht]

theorem infix_trimEnd_iff {part t : Text} (h : ∀ c, isBlank c = true → c ∉ part)
    (hne : part ≠ []) : part <:+: trimEnd t ↔ part <:+: t := by
  obtain ⟨cut, hc, he⟩ := dropLastWhile_append isBlank t
  conv => rhs; rw [he]
  exact (infix_append_iff_left (fun x hx => h x (hc x hx)) hne).symm

end Ends

section Lines
variable {part t line : Text} {more : List Text}

theorem splitLines_eq_nil : splitLines t = [] → t = [] := by
  fun_cases splitLines t <;> simp

/-- What follows the first line begins with a line break, if anything does. -/
theorem exists_tail_of_splitLines : splitLines t = line :: more →
    ∃ tail, t = line ++ tail ∧ ∀ c ∈ tail.head?, c.is isLineBreak = true := by
  fun_induction splitLines t generalizing line more with
  | case1 => intro h; cases h
  | case2 rest =>
    intro h
    cases h
    exact ⟨_, rfl, by simp [CodePoint.is, isLineBreak]⟩
  | case3 p rest _ hb =>
    intro h
    cases h
    exact ⟨_, rfl, by simpa using hb⟩
  | case4 p rest _ _ hr =>
    intro h
    cases h
    exact ⟨[], by rw [splitLines_eq_nil hr]; rfl, by simp⟩
  | case5 p rest _ _ l m hr ih =>
    intro h
    cases h
    obtain ⟨tail, he, ht⟩ := ih hr
    exact ⟨tail, by rw [he, List.cons_append], ht⟩

/-- A part without line breaks lies within one line. -/
theorem infix_iff_exists_line (h : ∀ c ∈ part, c.is isLineBreak = false) (hne : part ≠ []) :
    part <:+: t ↔ ∃ l ∈ splitLines t, part <:+: l := by
  have hbreak {c : CodePoint} (hc : c.is isLineBreak = true) : c ∉ part := by
    intro hm
    rw [h c hm] at hc
    cases hc
  have hempty : ¬ part <:+: [] := by simpa using hne
  fun_induction splitLines t with
  | case1 => simpa using hne
  | case2 rest ih =>
    rw [infix_cons_iff_of_not_mem (hbreak (by decide)) hne,
      infix_cons_iff_of_not_mem (hbreak (by decide)) hne]
    simpa [hempty] using ih
  | case3 p rest _ hb ih =>
    rw [infix_cons_iff_of_not_mem (hbreak hb) hne]
    simpa [hempty] using ih
  | case4 p rest _ _ hr =>
    rw [splitLines_eq_nil hr]
    simp
  | case5 p rest _ hb l m hr ih =>
    obtain ⟨tail, rfl, ht⟩ := exists_tail_of_splitLines hr
    have hseam (s : Text) : part <:+: s ++ tail ↔ part <:+: s ∨ part <:+: tail :=
      (seam_of_head fun c hc => hbreak (ht c hc)).infix_append_iff hne
    have hrest : (part <:+: l ∨ part <:+: tail) ↔ part <:+: l ∨ ∃ x ∈ m, part <:+: x := by
      simpa [hr, hseam l] using ih
    have hgrow : part <:+: l → part <:+: p :: l := fun hl => List.infix_cons_iff.mpr (.inr hl)
    rw [← List.cons_append, hseam]
    simp only [List.mem_cons, exists_eq_or_imp]
    constructor
    · rintro (hl | hl)
      · exact .inl hl
      · exact (hrest.mp (.inr hl)).imp_left hgrow
    · rintro (hl | hl)
      · exact .inl hl
      · exact (hrest.mpr (.inr hl)).imp_left hgrow

theorem not_break_of_mem_splitLines {c : CodePoint} :
    line ∈ splitLines t → c ∈ line → c.is isLineBreak = false := by
  fun_induction splitLines t generalizing line with
  | case1 => intro h; cases h
  | case2 rest ih =>
    intro h hc
    rcases List.mem_cons.mp h with rfl | h
    · cases hc
    · exact ih h hc
  | case3 p rest _ hb ih =>
    intro h hc
    rcases List.mem_cons.mp h with rfl | h
    · cases hc
    · exact ih h hc
  | case4 p rest _ hb hr =>
    intro h hc
    obtain rfl := List.mem_singleton.mp h
    obtain rfl := List.mem_singleton.mp hc
    simpa using hb
  | case5 p rest _ hb l m hr ih =>
    intro h hc
    rcases List.mem_cons.mp h with rfl | h
    · rcases List.mem_cons.mp hc with rfl | hc
      · simpa using hb
      · exact ih (hr ▸ List.mem_cons_self) hc
    · exact ih (hr ▸ List.mem_cons_of_mem _ h) hc

end Lines

section Occurrences
variable {α : Type} {part s t : List α} {before after word rest : List α} {blank : α}

/-- A part with one blank opens a list that has its first blank where the part has it. -/
theorem prefix_blank_iff (hbefore : blank ∉ before) (hword : blank ∉ word) :
    before ++ blank :: after <+: word ++ blank :: rest ↔ word = before ∧ after <+: rest := by
  induction word generalizing before with
  | nil =>
    cases before with
    | nil => simp
    | cons x before =>
      have hx : x ≠ blank := fun h => hbefore (h ▸ List.mem_cons_self)
      simp [hx]
  | cons y word ih =>
    simp only [List.mem_cons, not_or] at hword
    cases before with
    | nil => simp [hword.1]
    | cons x before =>
      simp only [List.mem_cons, not_or] at hbefore
      simp only [List.cons_append, List.cons_prefix_cons, ih hbefore.2 hword.2, List.cons.injEq]
      rw [eq_comm (a := x), and_assoc]

variable [DecidableEq α]

/-- How often the part stands in the list. -/
def occurrences (part t : List α) : Nat :=
  t.tails.countP (part <+: ·)

theorem occurrences_nil (hne : part ≠ []) : occurrences part [] = 0 := by
  simp [occurrences, hne]

theorem occurrences_cons (part : List α) (x : α) (t : List α) :
    occurrences part (x :: t) =
      occurrences part t + if part <+: x :: t then 1 else 0 := by
  simp [occurrences, List.countP_cons]

/-- Across a seam no occurrence is gained. -/
theorem Seam.occurrences_append (h : Seam part s t) (hne : part ≠ []) :
    occurrences part (s ++ t) = occurrences part s + occurrences part t := by
  induction s with
  | nil => simp [occurrences_nil hne]
  | cons x s ih =>
    have htail : Seam part s t := fun z hz => h z (by simp_all [List.getLast?_cons])
    have hhead : part <+: x :: s ++ t ↔ part <+: x :: s :=
      h.prefix_append_iff (List.cons_ne_nil x s)
    rw [List.cons_append] at hhead ⊢
    simp only [occurrences_cons, ih htail, hhead]
    omega

/-- A part with one blank occurs at the first blank of a list where the word before ends in what
the part has before its blank, and what follows opens as the part goes on. -/
theorem occurrences_word (hne : before ≠ []) (hbefore : blank ∉ before) (hword : blank ∉ word) :
    occurrences (before ++ blank :: after) (word ++ blank :: rest) =
      occurrences (before ++ blank :: after) rest +
        if before <:+ word ∧ after <+: rest then 1 else 0 := by
  induction word with
  | nil =>
    have hhead : ¬ before ++ blank :: after <+: blank :: rest := by
      intro h
      have hiff : before ++ blank :: after <+: [] ++ blank :: rest ↔ [] = before ∧ after <+: rest :=
        prefix_blank_iff hbefore List.not_mem_nil
      exact hne (hiff.mp h).1.symm
    simp [occurrences_cons, hhead, hne]
  | cons x word ih =>
    have htail : blank ∉ word := fun h => hword (List.mem_cons_of_mem _ h)
    have hhead : before ++ blank :: after <+: x :: (word ++ blank :: rest) ↔
        x :: word = before ∧ after <+: rest := prefix_blank_iff hbefore hword
    rw [List.cons_append, occurrences_cons, ih htail]
    simp only [hhead, List.suffix_cons_iff]
    by_cases hself : before = x :: word
    · have hlong : ¬ before <:+ word := by
        intro h
        have := h.length_le
        rw [hself, List.length_cons] at this
        omega
      simp [hself.symm, hlong]
    · simp [hself, Ne.symm hself]

theorem occurrences_of_not_mem (h : blank ∉ word) :
    occurrences (before ++ blank :: after) word = 0 := by
  rw [occurrences, List.countP_eq_zero]
  intro u hu hpart
  exact h (((List.mem_tails _ _).mp hu).subset ((of_decide_eq_true hpart).subset (by simp)))

end Occurrences
end ApiScaffold.Text
