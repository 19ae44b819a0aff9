import ApiScaffold.Proofs.Artifact.Put
import ApiScaffold.Proofs.Client.Exports
import ApiScaffold.Proofs.Spec.Distinct
import Mathlib.Data.List.Basic

namespace ApiScaffold
open Text

namespace Artifact
variable {dir dir' name name' ending ending' : Text} {names : List Text}

/-- The place of a name in a directory. -/
def place (dir ending name : Text) : Text :=
  dir ++ "/" ++ name ++ ending

theorem place_injective (dir ending : Text) : Function.Injective (place dir ending) := by
  intro name name' h
  exact List.append_cancel_left (List.append_cancel_right h)

theorem prefix_place : dir ++ Text.ofString "/" <+: place dir ending name := by
  rw [place, List.append_assoc]
  exact List.prefix_append _ _

/-- Names with different endings are at different places, in whatever directories. -/
theorem place_ne_place (h : ¬ ending <:+ ending') (h' : ¬ ending' <:+ ending) :
    place dir ending name ≠ place dir' ending' name' := by
  intro he
  have hs : ending <:+ place dir ending name := List.suffix_append _ _
  have hs' : ending' <:+ place dir ending name := he ▸ List.suffix_append _ _
  rcases Nat.le_total ending.length ending'.length with hl | hl
  · exact h (List.suffix_of_suffix_length_le hs hs' hl)
  · exact h' (List.suffix_of_suffix_length_le hs' hs hl)

theorem disjoint_place (h : ¬ ending <:+ ending') (h' : ¬ ending' <:+ ending)
    (names names' : List Text) :
    (names.map (place dir ending)).Disjoint (names'.map (place dir' ending')) := by
  intro p hp hp'
  obtain ⟨name, -, rfl⟩ := List.mem_map.mp hp
  obtain ⟨name', -, he⟩ := List.mem_map.mp hp'
  exact place_ne_place h h' he.symm

theorem not_mem_place {p : Text} (h : ¬ dir ++ Text.ofString "/" <+: p) :
    p ∉ names.map (place dir ending) := by
  intro hp
  obtain ⟨name, -, rfl⟩ := List.mem_map.mp hp
  exact h prefix_place

theorem place_index (dir : Text) :
    place dir ".ts" (Text.ofString "index") = dir ++ Text.ofString "/index.ts" := by
  simp [place, ofString, ofChars]

end Artifact

open Artifact

namespace Spec
variable (config : Config) (policy : Name.Policy) (s : Spec)

theorem paths_rendered : paths (s.rendered config policy) =
    s.tableNames.map (place config.dbDir "_table.sql") ++
      s.functionNames.map (place config.dbDir "_function.sql") ++
      config.typesFile ::
        (s.hookNames ++ [Text.ofString "index"]).map (place config.hooksDir ".ts") := by
  simp only [paths, rendered, tableNames, functionNames, hookNames, List.map_append, List.map_map,
    List.map_cons, List.map_nil, List.append_assoc, List.cons_append, place_index]
  rfl

theorem index_not_mem_hookNames : Text.ofString "index" ∉ s.hookNames := by
  intro h
  obtain ⟨f, -, he⟩ := List.mem_map.mp h
  cases he

theorem nodup_paths_rendered_iff (hdb : ¬ config.dbDir ++ Text.ofString "/" <+: config.typesFile)
    (hhooks : ¬ config.hooksDir ++ Text.ofString "/" <+: config.typesFile) :
    (paths (s.rendered config policy)).Nodup ↔ s.Distinct := by
  have hkinds : (s.tableNames.map (place config.dbDir "_table.sql")).Disjoint
      (s.functionNames.map (place config.dbDir "_function.sql")) :=
    disjoint_place (by decide) (by decide) _ _
  have htables : (s.tableNames.map (place config.dbDir "_table.sql")).Disjoint
      ((s.hookNames ++ [Text.ofString "index"]).map (place config.hooksDir ".ts")) :=
    disjoint_place (by decide) (by decide) _ _
  have hfunctions : (s.functionNames.map (place config.dbDir "_function.sql")).Disjoint
      ((s.hookNames ++ [Text.ofString "index"]).map (place config.hooksDir ".ts")) :=
    disjoint_place (by decide) (by decide) _ _
  have hhookNames : (s.hookNames ++ [Text.ofString "index"]).Nodup ↔ s.hookNames.Nodup := by
    rw [List.nodup_append', List.disjoint_singleton]
    simp [s.index_not_mem_hookNames]
  rw [paths_rendered, List.nodup_append', List.nodup_append', List.nodup_cons,
    List.nodup_map_iff (place_injective _ _), List.nodup_map_iff (place_injective _ _),
    List.nodup_map_iff (place_injective _ _), List.disjoint_cons_right, List.disjoint_append_left,
    hhookNames, List.mem_append]
  constructor
  · rintro ⟨⟨ht, hf, -⟩, ⟨-, hh⟩, -⟩
    exact ⟨ht, hf, hh⟩
  · rintro ⟨ht, hf, hh⟩
    refine ⟨⟨ht, hf, hkinds⟩, ⟨not_mem_place hhooks, hh⟩, ?_, htables, hfunctions⟩
    rintro (h | h)
    · exact not_mem_place hdb h
    · exact not_mem_place hdb h

theorem length_rendered :
    (s.rendered config policy).length = s.tables.length + 2 * s.functions.length + 2 := by
  simp only [rendered, List.length_append, List.length_map, List.length_cons, List.length_nil]
  omega

/-- The files hold each part of the specification at a place of its own, and the index exports the
modules of the hooks. -/
structure LaidOut (files : List Artifact) : Prop where
  kept : files = s.rendered config policy
  apart : (paths files).Nodup
  table : ∀ t ∈ s.tables,
    textAt files (config.dbDir ++ "/" ++ Identifier.ofTable t.name ++ "_table.sql") =
      some (t.sql ++ "\n")
  function : ∀ f ∈ s.functions,
    textAt files (config.dbDir ++ "/" ++ Identifier.ofFunction f.name ++ "_function.sql") =
      some (f.sql policy ++ "\n")
  hook : ∀ f ∈ s.functions,
    textAt files (config.hooksDir ++ "/" ++ Name.hook f.name ++ ".ts") =
      some ((f.hook policy).text config ++ "\n")
  types : textAt files config.typesFile = some (Client.typesModule s.tables ++ "\n")
  index : ∃ text, textAt files (config.hooksDir ++ "/index.ts") = some text ∧
    Client.reexports text = s.hookNames ∧ s.hookNames.Nodup

theorem laidOut_of_distinct (hdb : ¬ config.dbDir ++ Text.ofString "/" <+: config.typesFile)
    (hhooks : ¬ config.hooksDir ++ Text.ofString "/" <+: config.typesFile) (h : s.Distinct) :
    s.LaidOut config policy (s.artifacts config policy) := by
  have hapart := (s.nodup_paths_rendered_iff config policy hdb hhooks).mpr h
  have hfresh : Fresh [] (s.rendered config policy) := ⟨hapart, by simp [paths]⟩
  have hkept : s.artifacts config policy = s.rendered config policy := putAll_of_fresh hfresh
  rw [hkept]
  have hat : ∀ a ∈ s.rendered config policy,
      textAt (s.rendered config policy) a.path = some a.text :=
    fun a ha => textAt_of_mem hapart ha
  refine ⟨rfl, hapart, fun t ht => hat (.ofTable config t) ?_,
    fun f hf => hat (.ofFunction config policy f) ?_, fun f hf => hat (.ofHook config policy f) ?_,
    hat (.ofTypes config s) ?_, _, hat (.ofIndex config s) ?_,
    Client.reexports_indexModule s.over_hookNames, h.hooks⟩
  all_goals simp only [rendered, List.mem_append, List.mem_cons, List.mem_map]
  · exact .inl (.inl (.inl ⟨t, ht, rfl⟩))
  · exact .inl (.inl (.inr ⟨f, hf, rfl⟩))
  · exact .inl (.inr (.inr ⟨f, hf, rfl⟩))
  · exact .inl (.inr (.inl trivial))
  · exact .inr (.inl trivial)

/-- The collisions of a specification are what keeps its parts from having a file each, with one
more for the types and one for the index. Types that lie inside a generated directory could take
the place of another part, whatever the names are. -/
theorem collisions_eq_nil_iff_length_artifacts
    (hdb : ¬ config.dbDir ++ Text.ofString "/" <+: config.typesFile)
    (hhooks : ¬ config.hooksDir ++ Text.ofString "/" <+: config.typesFile) :
    (s.collisions = [] ↔
      (s.artifacts config policy).length = s.tables.length + 2 * s.functions.length + 2) ∧
    (s.collisions = [] → s.LaidOut config policy (s.artifacts config policy)) := by
  have hfresh : Fresh [] (s.rendered config policy) ↔ s.Distinct := by
    rw [← s.nodup_paths_rendered_iff config policy hdb hhooks, Fresh]
    simp [paths]
  refine ⟨?_, fun h => s.laidOut_of_distinct config policy hdb hhooks (s.distinct_iff.mpr h)⟩
  rw [← s.length_rendered config policy, ← s.distinct_iff, ← hfresh, ← length_putAll_eq_iff,
    List.length_nil, Nat.zero_add]
  rfl

/-- A table and a function on it. -/
def petShop : Spec :=
  { tables := [⟨"Pet", [⟨"id", .primitive "integer" none, false, true⟩]⟩]
    functions :=
      [{ name := "getPet", method := .get, path := "/pets", requestBody := none,
         responseBody := some "Pet", parameters := [], summary := "" }] }

theorem laidOut_petShop :
    ¬ Config.standard.dbDir ++ Text.ofString "/" <+: Config.standard.typesFile ∧
    ¬ Config.standard.hooksDir ++ Text.ofString "/" <+: Config.standard.typesFile ∧
    (petShop.artifacts .standard .standard).length = 5 ∧
    petShop.LaidOut .standard .standard (petShop.artifacts .standard .standard) := by
  obtain ⟨hlength, hlaid⟩ := petShop.collisions_eq_nil_iff_length_artifacts .standard .standard
    (by decide) (by decide)
  have hnone : petShop.collisions = [] := by decide
  exact ⟨by decide, by decide, hlength.mp hnone, hlaid hnone⟩

end Spec

end ApiScaffold
