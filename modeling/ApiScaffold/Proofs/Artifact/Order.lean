import ApiScaffold.Proofs.Artifact.Layout

namespace ApiScaffold

namespace Artifact
variable {files : List Artifact} {p text : Text}

theorem textAt_eq_some_iff (h : (paths files).Nodup) :
    textAt files p = some text ↔ ⟨p, text⟩ ∈ files := by
  constructor
  · intro ht
    obtain ⟨a, ha, rfl⟩ := Option.map_eq_some_iff.mp ht
    have hpath : a.path = p := by simpa using List.find?_some ha
    rw [← hpath]
    exact List.mem_of_find?_eq_some ha
  · intro hm
    exact textAt_of_mem h hm

end Artifact

open Artifact

namespace Client

/-- The text of a module that is made of parts, or of none. -/
def moduleOf (between : Text) (parts : List Text) : Text :=
  (if parts.isEmpty then emptyModule else Text.joined between parts) ++ "\n"

theorem typesModule_eq_moduleOf (tables : List Table) :
    typesModule tables ++ Text.ofString "\n" = moduleOf "\n\n" (tables.map interfaceText) := by
  rw [typesModule, moduleOf, List.isEmpty_map]

theorem indexModule_eq_moduleOf {names : List Text}
    (h : ∀ n ∈ names, Text.Over Char.isAlphanum n) :
    indexModule names ++ Text.ofString "\n" = moduleOf "\n" (names.map exportLine) := by
  cases names with
  | nil => rfl
  | cons n rest =>
    rw [indexModule_eq h (by simp)]
    rfl

end Client

namespace Spec
variable {config : Config} {policy : Name.Policy} {s s' : Spec}

/-- The same tables and functions, in other orders. -/
structure Shuffled (s s' : Spec) : Prop where
  tables : s.tables.Perm s'.tables
  functions : s.functions.Perm s'.functions

theorem Shuffled.symm (h : Shuffled s s') : Shuffled s' s :=
  ⟨h.tables.symm, h.functions.symm⟩

theorem Shuffled.distinct (h : Shuffled s s') (hs : s.Distinct) : s'.Distinct := by
  refine ⟨?_, ?_, ?_⟩
  · exact (h.tables.map _).nodup_iff.mp hs.tables
  · exact (h.functions.map _).nodup_iff.mp hs.functions
  · exact (h.functions.map _).nodup_iff.mp hs.hooks

theorem Shuffled.collisions (h : Shuffled s s') (hs : s.collisions = []) : s'.collisions = [] :=
  s'.distinct_iff.mp (h.distinct (s.distinct_iff.mpr hs))

theorem Shuffled.paths_rendered (h : Shuffled s s') :
    (paths (s.rendered config policy)).Perm (paths (s'.rendered config policy)) := by
  rw [Spec.paths_rendered, Spec.paths_rendered]
  have ht := (h.tables.map fun t => Identifier.ofTable t.name).map (place config.dbDir "_table.sql")
  have hf := (h.functions.map fun f => Identifier.ofFunction f.name).map
    (place config.dbDir "_function.sql")
  have hh := ((h.functions.map fun f => Name.hook f.name).append_right
    [Text.ofString "index"]).map (place config.hooksDir ".ts")
  exact (ht.append hf).append (hh.cons config.typesFile)

/-- A file for a table or a function is made from nothing else. -/
theorem Shuffled.mem_rendered {a : Artifact} (h : Shuffled s s')
    (ha : a ∈ s.rendered config policy) :
    a = .ofTypes config s ∨ a = .ofIndex config s ∨ a ∈ s'.rendered config policy := by
  simp only [rendered, List.mem_append, List.mem_cons, List.mem_map, List.not_mem_nil,
    or_false] at ha ⊢
  rcases ha with ((⟨t, ht, rfl⟩ | ⟨f, hf, rfl⟩) | rfl | ⟨f, hf, rfl⟩) | rfl
  · exact .inr (.inr (.inl (.inl (.inl ⟨t, h.tables.mem_iff.mp ht, rfl⟩))))
  · exact .inr (.inr (.inl (.inl (.inr ⟨f, h.functions.mem_iff.mp hf, rfl⟩))))
  · exact .inl rfl
  · exact .inr (.inr (.inl (.inr (.inr ⟨f, h.functions.mem_iff.mp hf, rfl⟩))))
  · exact .inr (.inl rfl)

theorem Shuffled.mem_of_mem {p text : Text} (h : Shuffled s s') (htypes : p ≠ config.typesFile)
    (hindex : p ≠ config.hooksDir ++ "/index.ts") (hm : ⟨p, text⟩ ∈ s.rendered config policy) :
    ⟨p, text⟩ ∈ s'.rendered config policy := by
  rcases h.mem_rendered hm with he | he | hm
  · exact absurd (congrArg Artifact.path he) htypes
  · exact absurd (congrArg Artifact.path he) hindex
  · exact hm

/-- The files of specifications with the same parts are the same but for the two that list them. -/
theorem Shuffled.textAt_eq (h : Shuffled s s') (hs : (paths (s.rendered config policy)).Nodup)
    {p : Text} (htypes : p ≠ config.typesFile) (hindex : p ≠ config.hooksDir ++ "/index.ts") :
    textAt (s.rendered config policy) p = textAt (s'.rendered config policy) p := by
  have hs' : (paths (s'.rendered config policy)).Nodup := h.paths_rendered.nodup_iff.mp hs
  apply Option.ext
  intro text
  rw [textAt_eq_some_iff hs, textAt_eq_some_iff hs']
  exact ⟨h.mem_of_mem htypes hindex, h.symm.mem_of_mem htypes hindex⟩

section Lists
variable {config : Config} {policy : Name.Policy} {s : Spec}

/-- The types have the interfaces in the order of the tables. -/
theorem textAt_types (h : (Artifact.paths (s.rendered config policy)).Nodup) :
    textAt (s.rendered config policy) config.typesFile =
      some (Client.moduleOf "\n\n" (s.tables.map Client.interfaceText)) := by
  have hm : Artifact.ofTypes config s ∈ s.rendered config policy := by simp [rendered]
  rw [← Client.typesModule_eq_moduleOf]
  exact textAt_of_mem h hm

/-- The index has its lines in the order of the functions. -/
theorem textAt_index (h : (Artifact.paths (s.rendered config policy)).Nodup) :
    textAt (s.rendered config policy) (config.hooksDir ++ "/index.ts") =
      some (Client.moduleOf "\n" (s.functions.map fun f =>
        Client.exportLine (Name.hook f.name))) := by
  have hm : Artifact.ofIndex config s ∈ s.rendered config policy := by simp [rendered]
  have htext := Client.indexModule_eq_moduleOf s.over_hookNames
  rw [hookNames, List.map_map] at htext
  have hat := textAt_of_mem h hm
  exact hat.trans (congrArg some htext)

end Lists

end Spec
end ApiScaffold
