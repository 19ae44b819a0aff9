import ApiScaffold.Client.Hook
import ApiScaffold.Proofs.Name.Claimed

namespace ApiScaffold.Endpoint
variable {f : Endpoint}

/-- A parameter has one place, so the two places that a client fills share no name. -/
theorem nodup_clientNames (h : (f.parameters.map (·.name)).Nodup) :
    (f.clientParameters.map (·.name)).Nodup := by
  have hlocated (l : Location) : ((f.located l).map (·.name)).Nodup :=
    h.sublist (List.filter_sublist.map _)
  have hdisjoint : List.Disjoint (f.pathParameters.map (·.name))
      (f.queryParameters.map (·.name)) := by
    intro name hpath hquery
    obtain ⟨p, hp, rfl⟩ := List.mem_map.mp hpath
    obtain ⟨q, hq, hname⟩ := List.mem_map.mp hquery
    obtain ⟨hp, hplace⟩ := List.mem_filter.mp hp
    obtain ⟨hq, hother⟩ := List.mem_filter.mp hq
    obtain rfl : q = p := List.inj_on_of_nodup_map h hq hp hname
    simp only [beq_iff_eq] at hplace hother
    cases hplace.symm.trans hother
  rw [clientParameters, List.map_append]
  exact (hlocated .path).append (hlocated .query) hdisjoint

theorem bodyField_not_mem (f : Endpoint) : f.bodyField ∉ f.clientParameters.map (·.name) :=
  Name.key_unique_not_mem .exact _ _

theorem names_clientFields (policy : Name.Policy) (f : Endpoint) :
    (f.clientFields policy).map (·.name) =
      f.clientParameters.map (·.name) ++
        ((nonEmpty? f.requestBody).map fun _ => f.bodyField).toList := by
  cases hbody : nonEmpty? f.requestBody <;>
    simp [clientFields, clientParameters, hbody, Function.comp_def]

/-- The members of a hook's parameters are told apart as long as the parameters are. -/
theorem nodup_fields (policy : Name.Policy) (h : (f.parameters.map (·.name)).Nodup) :
    ((f.hook policy).fields.map (·.name)).Nodup := by
  change ((f.clientFields policy).map (·.name)).Nodup
  rw [names_clientFields]
  cases nonEmpty? f.requestBody with
  | none => simpa using nodup_clientNames h
  | some body =>
    exact (nodup_clientNames h).append (List.nodup_singleton _)
      (List.disjoint_singleton.mpr f.bodyField_not_mem)

end ApiScaffold.Endpoint
