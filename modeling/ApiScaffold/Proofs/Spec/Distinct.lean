import ApiScaffold.Proofs.Name.Letters
import ApiScaffold.Spec.Collision
import Mathlib.Data.List.Nodup

namespace ApiScaffold

namespace Collision
variable {kind : ArtifactKind} {generate : Text → Text} {sources : List Text}

theorem length_sources_eq_count (generated : Text) :
    (sources.filter fun s => generate s == generated).length =
      (sources.map generate).count generated := by
  rw [List.count, List.countP_map, List.countP_eq_length_filter]
  rfl

/-- Nothing collides among names that are told apart after generation. -/
theorem among_eq_nil_iff : among kind generate sources = [] ↔ (sources.map generate).Nodup := by
  unfold among
  simp only [List.filterMap_eq_nil_iff, ite_eq_right_iff, reduceCtorEq, imp_false, Nat.not_lt,
    List.mem_eraseDups, length_sources_eq_count]
  constructor
  · intro h
    rw [List.nodup_iff_count_le_one]
    intro generated
    by_cases hm : generated ∈ sources.map generate
    · exact h generated hm
    · rw [List.count_eq_zero.mpr hm]
      exact Nat.zero_le 1
  · intro h generated _
    exact List.nodup_iff_count_le_one.mp h generated

end Collision

namespace Spec
variable (s : Spec)

def tableNames : List Text :=
  s.tables.map fun t => Identifier.ofTable t.name

def functionNames : List Text :=
  s.functions.map fun f => Identifier.ofFunction f.name

def hookNames : List Text :=
  s.functions.map fun f => Name.hook f.name

theorem over_hookNames : ∀ n ∈ s.hookNames, Text.Over Char.isAlphanum n := by
  intro n hn
  obtain ⟨f, -, rfl⟩ := List.mem_map.mp hn
  exact Text.Over.append (by decide) (Name.over_pascal f.name)

/-- The generated names of each kind are told apart as they are written. -/
structure Distinct : Prop where
  tables : s.tableNames.Nodup
  functions : s.functionNames.Nodup
  hooks : s.hookNames.Nodup

theorem distinct_iff : s.Distinct ↔ s.collisions = [] := by
  simp only [collisions, List.append_eq_nil_iff, Collision.among_eq_nil_iff, List.map_map]
  constructor
  · rintro ⟨ht, hf, hh⟩
    exact ⟨⟨ht, hf⟩, hh⟩
  · rintro ⟨⟨ht, hf⟩, hh⟩
    exact ⟨ht, hf, hh⟩

end Spec

end ApiScaffold
