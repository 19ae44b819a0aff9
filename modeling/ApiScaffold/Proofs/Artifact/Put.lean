import ApiScaffold.Artifact
import Mathlib.Data.List.Nodup
import Mathlib.Tactic.Tauto

namespace ApiScaffold.Artifact
variable {a : Artifact} {known files : List Artifact} {p : Text}

def paths (files : List Artifact) : List Text :=
  files.map (·.path)

/-- The text of the file at a path. -/
def textAt (files : List Artifact) (p : Text) : Option Text :=
  (files.find? (·.path == p)).map (·.text)

/-- Puts one file after the other. -/
def putAll (known files : List Artifact) : List Artifact :=
  files.foldl (fun files a => a.put files) known

theorem put_of_mem (h : a.path ∈ paths known) : paths (a.put known) = paths known := by
  induction known with
  | nil => cases h
  | cons b rest ih =>
    rw [put]
    split
    · rename_i he
      simp [paths, he]
    · rename_i hne
      have hrest : a.path ∈ paths rest := by
        rcases List.mem_cons.mp h with he | hm
        · exact absurd he.symm hne
        · exact hm
      exact congrArg (b.path :: ·) (ih hrest)

theorem put_of_not_mem (h : a.path ∉ paths known) : a.put known = known ++ [a] := by
  induction known with
  | nil => rfl
  | cons b rest ih =>
    have hne : b.path ≠ a.path := fun he => h (he ▸ List.mem_cons_self)
    rw [put, if_neg hne, ih fun hm => h (List.mem_cons_of_mem _ hm)]
    rfl

theorem length_paths : (paths files).length = files.length :=
  List.length_map _

theorem length_put_of_mem (h : a.path ∈ paths known) : (a.put known).length = known.length := by
  rw [← length_paths, put_of_mem h, length_paths]

theorem length_putAll_le : (putAll known files).length ≤ known.length + files.length := by
  induction files generalizing known with
  | nil => exact Nat.le_refl _
  | cons a rest ih =>
    have hput : (a.put known).length ≤ known.length + 1 := by
      by_cases hm : a.path ∈ paths known
      · rw [length_put_of_mem hm]
        exact Nat.le_succ _
      · simp [put_of_not_mem hm]
    have hrest : (putAll (a.put known) rest).length ≤ (a.put known).length + rest.length := ih
    calc (putAll known (a :: rest)).length
        ≤ (a.put known).length + rest.length := hrest
      _ ≤ known.length + (a :: rest).length := by
        rw [List.length_cons]
        omega

theorem nodup_paths_putAll (h : (paths known).Nodup) : (paths (putAll known files)).Nodup := by
  induction files generalizing known with
  | nil => exact h
  | cons a rest ih =>
    have hput : (paths (a.put known)).Nodup := by
      by_cases hm : a.path ∈ paths known
      · rwa [put_of_mem hm]
      · rw [put_of_not_mem hm]
        simpa [paths] using List.Nodup.append h (List.nodup_singleton _)
          (List.disjoint_singleton.mpr hm)
    exact ih hput

/-- The paths are new and told apart. -/
def Fresh (known files : List Artifact) : Prop :=
  (paths files).Nodup ∧ ∀ a ∈ files, a.path ∉ paths known

theorem fresh_cons_iff :
    Fresh known (a :: files) ↔ a.path ∉ paths known ∧ Fresh (known ++ [a]) files := by
  have hpath : (∀ b ∈ files, b.path ≠ a.path) ↔ a.path ∉ paths files := by
    simp [paths, eq_comm]
  simp only [Fresh, paths, List.map_cons, List.nodup_cons, List.mem_cons, forall_eq_or_imp,
    List.map_append, List.map_nil, List.mem_append, List.not_mem_nil, or_false, not_or,
    forall_and] at hpath ⊢
  rw [hpath]
  tauto

/-- Nothing is overwritten among files with new paths. -/
theorem putAll_of_fresh (h : Fresh known files) : putAll known files = known ++ files := by
  induction files generalizing known with
  | nil => exact (List.append_nil _).symm
  | cons a rest ih =>
    obtain ⟨ha, hrest⟩ := fresh_cons_iff.mp h
    calc putAll known (a :: rest)
        = putAll (known ++ [a]) rest := by rw [← put_of_not_mem ha]; rfl
      _ = known ++ [a] ++ rest := ih hrest
      _ = known ++ a :: rest := List.append_assoc _ _ _

/-- Every file takes a place of its own just when the paths are new and told apart. -/
theorem length_putAll_eq_iff :
    (putAll known files).length = known.length + files.length ↔ Fresh known files := by
  constructor
  · intro h
    induction files generalizing known with
    | nil => exact ⟨List.nodup_nil, by simp⟩
    | cons a rest ih =>
      have hle : (putAll (a.put known) rest).length ≤ (a.put known).length + rest.length :=
        length_putAll_le
      have hlength : (putAll (a.put known) rest).length = known.length + (rest.length + 1) := h
      have ha : a.path ∉ paths known := by
        intro hm
        rw [length_put_of_mem hm] at hle
        omega
      rw [put_of_not_mem ha] at hlength
      refine fresh_cons_iff.mpr ⟨ha, ih ?_⟩
      rw [hlength, List.length_append, List.length_singleton]
      omega
  · intro h
    rw [putAll_of_fresh h, List.length_append]

theorem textAt_of_mem (h : (paths files).Nodup) (ha : a ∈ files) :
    textAt files a.path = some a.text := by
  induction files with
  | nil => cases ha
  | cons b rest ih =>
    obtain ⟨hb, hrest⟩ := List.nodup_cons.mp h
    rcases List.mem_cons.mp ha with rfl | ha
    · simp [textAt]
    · have hne : b.path ≠ a.path := by
        intro he
        exact hb (List.mem_map.mpr ⟨a, ha, he.symm⟩)
      simpa [textAt, hne] using ih hrest ha

end ApiScaffold.Artifact
