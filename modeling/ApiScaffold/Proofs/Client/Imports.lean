import ApiScaffold.Proofs.Client.Interfaces
import ApiScaffold.Proofs.DataType.Mentions

namespace ApiScaffold.Endpoint
open Client DataType
variable {policy : Name.Policy} {f : Endpoint} {t : DataType} {n : Text}

/-- Every type of a function is written in its hook. -/
theorem client_mem_expressions (h : t ∈ f.clientTypes policy) : t.client ∈ f.expressions policy := by
  have hfields : (f.hook policy).fields.map (·.type) =
      f.clientParameters.map (·.type.client) ++ ((nonEmpty? f.requestBody).map fun body =>
        (ofName policy body).client).toList := by
    cases hbody : nonEmpty? f.requestBody <;>
      simp [hook, clientFields, clientParameters, hbody, Function.comp_def]
  rw [expressions, hfields, List.mem_append, List.mem_append]
  rcases mem_clientTypes.mp h with ⟨p, hp, rfl⟩ | ⟨body, hbody, rfl⟩
  · exact .inl (.inl (List.mem_map.mpr ⟨p, hp, rfl⟩))
  · rcases mem_bodies.mp hbody with hbody | hbody
    · exact .inl (.inr (by simp [hbody]))
    · exact .inr (by simp [hook, resultType, hbody])

/-- What a hook imports, it imports once, and for an entity that one of its types refers to. It
writes the import as a type, unless the entity stands in nothing but properties of objects: these
are written as records, and imported for all that. -/
theorem importedTypes_occur (policy : Name.Policy) (config : Config) (f : Endpoint) :
    ((f.hook policy).code config).importedTypes.Nodup ∧
      ∀ n ∈ ((f.hook policy).code config).importedTypes,
        (∃ t ∈ f.clientTypes policy, ∃ e, t.Mentions e ∧ Identifier.clean "" e = n) ∧
          ((∃ x ∈ f.expressions policy, BaseName x n) ∨
            ∃ p ∈ f.clientParameters, ∃ e, p.type.Hides e ∧ Identifier.clean "" e = n) := by
  rw [importedTypes_eq]
  refine ⟨f.nodup_typeImports policy, fun n hn => ?_⟩
  obtain ⟨hne, e, he, rfl⟩ := mem_typeImports.mp hn
  obtain ⟨t, ht, he⟩ := List.mem_flatMap.mp he
  have hmentions := (mem_entities_iff t).mp he
  refine ⟨⟨t, ht, e, hmentions, rfl⟩, ?_⟩
  rcases mentions_iff_shows_or_hides.mp hmentions with hshows | hhides
  · exact .inl ⟨t.client, client_mem_expressions ht, hshows.baseName_client hne⟩
  · rcases mem_clientTypes.mp ht with ⟨p, hp, rfl⟩ | ⟨body, -, rfl⟩
    · exact .inr ⟨p, hp, e, hhides, rfl⟩
    · exact absurd hhides not_hides_ofName

/-- Pets can be filtered by an object that tells about their owner, and by an entity that is
called like a primitive type. -/
def filterByOwner : Endpoint :=
  { name := "filterPets", method := .get, path := "/pets",
    parameters := [⟨"filter", .query, false, .object [("owner", .reference "Owner")]⟩,
      ⟨"kind", .query, false, .reference "string"⟩],
    requestBody := none, responseBody := none, summary := "" }

/-- The owner is imported and nothing is written with it, and `string` is imported as well. -/
theorem importedTypes_filterByOwner :
    ((filterByOwner.hook .standard).code .standard).importedTypes = ["Owner", "string"] ∧
      filterByOwner.expressions .standard = ["Record<string, any>", "string", "null"] ∧
      ∀ x ∈ filterByOwner.expressions .standard, ¬ Text.ofString "Owner" <:+: x := by
  have hwritten : filterByOwner.expressions .standard =
      ["Record<string, any>", "string", "null"] := rfl
  rw [importedTypes_eq, hwritten]
  exact ⟨by decide +kernel, rfl, by decide +kernel⟩

end ApiScaffold.Endpoint
