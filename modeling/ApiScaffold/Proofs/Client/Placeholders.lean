import ApiScaffold.Client.Route

namespace ApiScaffold.Client
variable {s t u v name rest before : Text}

/-- A name between braces. -/
def braced (name : Text) : Text :=
  .char '{' :: (name ++ [.char '}'])

/-- What can be a placeholder between braces: not nothing, and nothing with a brace of its own. -/
structure IsPlaceholder (name : Text) : Prop where
  ne_nil : name ≠ []
  noOpening : .char '{' ∉ name
  noClosing : .char '}' ∉ name

namespace Segment

/-- Whether a code point can stand inside a placeholder. -/
def isInner (p : CodePoint) : Bool :=
  p != .char '{' && p != .char '}'

theorem isPlaceholder_iff : IsPlaceholder name ↔ name ≠ [] ∧ ∀ p ∈ name, isInner p = true := by
  constructor
  · intro h
    refine ⟨h.ne_nil, fun p hp => ?_⟩
    have hopening : p ≠ .char '{' := fun he => h.noOpening (he ▸ hp)
    have hclosing : p ≠ .char '}' := fun he => h.noClosing (he ▸ hp)
    simp [isInner, hopening, hclosing]
  · rintro ⟨hne, hinner⟩
    have hnot {p : CodePoint} (hp : isInner p = false) : p ∉ name := by
      intro hm
      exact absurd (hinner p hm) (by simp [hp])
    exact ⟨hne, hnot (by decide), hnot (by decide)⟩

theorem append_drop_takeWhile (s : Text) :
    s.takeWhile isInner ++ s.drop (s.takeWhile isInner).length = s := by
  have htake := List.prefix_iff_eq_take.mp (List.takeWhile_prefix (l := s) isInner)
  calc s.takeWhile isInner ++ s.drop (s.takeWhile isInner).length
      = s.take (s.takeWhile isInner).length ++ s.drop (s.takeWhile isInner).length := by
        rw [← htake]
    _ = s := List.take_append_drop _ s

theorem placeholder?_eq_some_iff :
    placeholder? s = some (name, rest) ↔ IsPlaceholder name ∧ s = name ++ .char '}' :: rest := by
  rw [isPlaceholder_iff]
  constructor
  · intro h
    have hinner : ∀ p ∈ s.takeWhile isInner, isInner p = true :=
      List.all_eq_true.mp List.all_takeWhile
    have hsplit := append_drop_takeWhile s
    unfold placeholder? at h
    dsimp only at h
    split at h
    · rename_i p more tail hname hdrop
      obtain ⟨rfl, rfl⟩ := Prod.mk.inj (Option.some.inj h)
      refine ⟨⟨hname ▸ List.cons_ne_nil p more, hinner⟩, ?_⟩
      rw [← hdrop]
      exact hsplit.symm
    · cases h
  · rintro ⟨⟨hne, hinner⟩, rfl⟩
    obtain ⟨p, more, rfl⟩ := List.exists_cons_of_ne_nil hne
    have htake : (p :: more ++ .char '}' :: rest).takeWhile
        (fun p => p != .char '{' && p != .char '}') = p :: more :=
      (List.takeWhile_append_of_pos hinner).trans (by simp [isInner])
    simp only [placeholder?, htake, List.drop_left]

/-- A segment as it stands in its path. -/
def spelling (s : Segment) : Text :=
  s.text ++ (s.placeholder.map braced).getD []

theorem flatMap_spelling_cut (before s : Text) :
    (cut before s).flatMap spelling = before.reverse ++ s := by
  fun_induction cut before s with
  | case1 before => simp [spelling]
  | case2 before rest name tail h ih =>
    obtain ⟨-, rfl⟩ := placeholder?_eq_some_iff.mp h
    rw [List.flatMap_cons, ih]
    simp [spelling, braced]
  | case3 before rest h ih => simpa using ih
  | case4 before p rest hp ih => simpa using ih

theorem cut_of_placeholder (h : placeholder? s = some (name, rest)) :
    cut before (.char '{' :: s) = ⟨before.reverse, some name⟩ :: cut [] rest := by
  rw [cut, if_pos rfl]
  split
  · rename_i found tail hfound
    obtain ⟨rfl, rfl⟩ := Prod.mk.inj (Option.some.inj (h.symm.trans hfound))
    rfl
  · rename_i hnone
    cases h.symm.trans hnone

theorem cut_of_text {p : CodePoint} (h : p = .char '{' → placeholder? s = none) :
    cut before (p :: s) = cut (p :: before) s := by
  rw [cut]
  split
  · rename_i hp
    split
    · rename_i hfound
      cases (h hp).symm.trans hfound
    · rfl
  · rfl

/-- A placeholder that begins in front of another one also ends in front of it. -/
theorem ends_before_braced {found : Text} (h : IsPlaceholder found)
    (heq : u ++ (braced name ++ v) = found ++ .char '}' :: rest) :
    ∃ more, u = found ++ .char '}' :: more ∧ rest = more ++ (braced name ++ v) := by
  rcases List.append_eq_append_iff.mp heq with ⟨gap, hfound, hgap⟩ | ⟨gap, hu, hgap⟩
  · cases gap with
    | nil =>
      cases (List.cons.inj hgap).1
    | cons p gap =>
      obtain rfl := (List.cons.inj hgap).1
      exact absurd (hfound ▸ by simp) h.noOpening
  · cases gap with
    | nil => cases (List.cons.inj hgap).1
    | cons p gap =>
      obtain ⟨rfl, hrest⟩ := List.cons.inj hgap
      exact ⟨gap, hu, hrest⟩

/-- A placeholder ends a segment wherever it stands in the path. -/
theorem cut_append_braced (h : IsPlaceholder name) (before u v : Text) :
    ∃ xs t, cut before (u ++ (braced name ++ v)) = xs ++ ⟨t, some name⟩ :: cut [] v ∧
      xs.flatMap spelling ++ t = before.reverse ++ u := by
  cases u with
  | nil =>
    have hname : placeholder? (name ++ .char '}' :: v) = some (name, v) :=
      placeholder?_eq_some_iff.mpr ⟨h, rfl⟩
    have hbraced : [] ++ (braced name ++ v) = .char '{' :: (name ++ .char '}' :: v) := by
      simp [braced]
    exact ⟨[], before.reverse, by rw [hbraced, cut_of_placeholder hname]; rfl, by simp⟩
  | cons p u =>
    by_cases hopens : p = .char '{' ∧ ∃ found rest,
        placeholder? (u ++ (braced name ++ v)) = some (found, rest)
    · obtain ⟨hp, found, rest, hfound⟩ := hopens
      obtain ⟨hplace, heq⟩ := placeholder?_eq_some_iff.mp hfound
      obtain ⟨more, hu, rfl⟩ := ends_before_braced hplace heq
      have hlt : more.length < (p :: u).length := by
        simp only [hu, List.length_cons, List.length_append]
        omega
      obtain ⟨xs, t, hcut, hspelling⟩ := cut_append_braced h [] more v
      refine ⟨⟨before.reverse, some found⟩ :: xs, t, ?_, ?_⟩
      · rw [hp, List.cons_append, cut_of_placeholder hfound, hcut]
        rfl
      · rw [List.flatMap_cons, List.append_assoc, hspelling, hp, hu]
        simp [spelling, braced]
    · have htext : p = .char '{' → placeholder? (u ++ (braced name ++ v)) = none := by
        intro hp
        rw [Option.eq_none_iff_forall_ne_some]
        exact fun found hfound => hopens ⟨hp, found.1, found.2, hfound⟩
      obtain ⟨xs, t, hcut, hspelling⟩ := cut_append_braced h (p :: before) u v
      refine ⟨xs, t, ?_, ?_⟩
      · rw [List.cons_append, cut_of_text htext, hcut]
      · rw [hspelling]
        simp
termination_by u.length

theorem isPlaceholder_of_mem_cut {x : Segment} (hx : x ∈ cut before s)
    (hname : x.placeholder = some name) : IsPlaceholder name := by
  fun_induction cut before s with
  | case1 before =>
    obtain rfl := List.mem_singleton.mp hx
    cases hname
  | case2 before rest found tail h ih =>
    rcases List.mem_cons.mp hx with rfl | hx
    · obtain rfl := Option.some.inj hname
      exact (placeholder?_eq_some_iff.mp h).1
    · exact ih hx
  | case3 before rest h ih => exact ih hx
  | case4 before p rest hp ih => exact ih hx

end Segment

end ApiScaffold.Client
