import ApiScaffold.Proofs.Assoc.Keys
import ApiScaffold.Proofs.Client.Fields
import ApiScaffold.Proofs.Document.Reach
import ApiScaffold.Proofs.Document.Single
import ApiScaffold.Proofs.Spec.Distinct

namespace ApiScaffold

/-- The names of a specification that are told apart, and those that are not empty. -/
structure Spec.NamesApart (s : Spec) : Prop where
  tables : (s.tables.map (·.name)).Nodup
  columns : ∀ t ∈ s.tables, (t.columns.map (·.name)).Nodup
  functions : (s.functions.map (·.name)).Nodup
  functionsNamed : ∀ f ∈ s.functions, f.name ≠ []
  parameters : ∀ f ∈ s.functions, (f.parameters.map (·.name)).Nodup
  parametersNamed : ∀ f ∈ s.functions, ∀ p ∈ f.parameters, p.name ≠ []
  fields : ∀ f ∈ s.functions, ∀ policy, ((f.hook policy).fields.map (·.name)).Nodup

namespace Document

section Columns
variable {d : Document} {policy : Name.Policy} {s : Site} {o : Except Fault Members}
  {schema : Tree} {m : Members}

theorem nodup_keys_joined {ms : List Members} {known : Members}
    (h : known.properties.keys.Nodup) :
    (ms.foldl Members.join known).properties.keys.Nodup := by
  induction ms generalizing known with
  | nil => exact h
  | cons m rest ih => exact ih (Assoc.nodup_keys_putAll h)

/-- Whatever the parts bring along, an expansion has every property once. -/
theorem nodup_keys_of_ends (h : Ends d s o) (ho : o = .ok m) : m.properties.keys.Nodup := by
  induction h with
  | nothing =>
    cases ho
    exact List.nodup_nil
  | target _ _ ih => exact ih ho
  | again => cases ho
  | inside _ _ ih => exact ih ho
  | composed =>
    obtain ⟨own, -, ho⟩ := ok_of_bind ho
    cases ho
    exact Assoc.nodup_keys_putAll (nodup_keys_joined List.nodup_nil)
  | failed => cases ho

theorem nodup_keys_of_members (h : (d.members schema).result = .ok m) :
    m.properties.keys.Nodup := by
  have hends := (sound_expand [] [] schema (List.subset_append_left _ _)).ends_of_eq h
    not_rejects_ok
  exact nodup_keys_of_ends hends rfl

theorem names_of_columns {columns : List Column} (h : Document.columns policy m = .ok columns) :
    columns.map (·.name) = m.properties.keys := by
  refine map_eq_map_of_mapM h ?_
  intro e c hc
  obtain ⟨type, -, hc⟩ := ok_of_bind hc
  cases hc
  rfl

theorem nodup_columns_of_table {name : Text} {t : Table}
    (h : (d.table policy name schema).result = .ok t) : (t.columns.map (·.name)).Nodup := by
  obtain ⟨m, hm, h⟩ := Traced.ok_of_bind h
  obtain ⟨columns, hcolumns, h⟩ := Traced.ok_of_bind h
  cases h
  exact names_of_columns hcolumns ▸ nodup_keys_of_members hm

end Columns

section Parameters
variable {d : Document} {m merged : Assoc Tree} {raws : List Tree} {ps : List Parameter}

/-- Parameters under their names, none of which is empty. -/
structure Keyed (m : Assoc Tree) : Prop where
  apart : m.keys.Nodup
  named : ∀ e ∈ m, nonEmpty? (e.2.get "name").str? = some e.1

theorem keyed_nil : Keyed [] :=
  ⟨List.nodup_nil, by simp⟩

theorem Keyed.put (h : Keyed m) {name : Text} {parameter : Tree}
    (hn : nonEmpty? (parameter.get "name").str? = some name) : Keyed (m.put name parameter) :=
  ⟨Assoc.nodup_keys_put h.apart, Assoc.forall_put h.named hn⟩

theorem keyed_mergeFrom (h : Keyed m) (hr : (d.mergeFrom m raws).result = .ok merged) :
    Keyed merged := by
  induction raws generalizing m with
  | nil =>
    cases hr
    exact h
  | cons raw rest ih =>
    rw [mergeFrom] at hr
    obtain ⟨found, -, hr⟩ := Traced.ok_of_bind hr
    cases found with
    | none =>
      obtain ⟨_, -, hr⟩ := Traced.ok_of_bind hr
      exact ih h hr
    | some parameter =>
      dsimp only at hr
      split at hr
      · obtain ⟨_, -, hr⟩ := Traced.ok_of_bind hr
        exact ih h hr
      · rename_i name hn
        exact ih (h.put hn) hr

theorem name_of_parameter? {raw : Tree} {p : Parameter} (h : parameter? raw = .ok (some p)) :
    (raw.get "name").str? = some p.name := by
  unfold parameter? at h
  dsimp only at h
  split at h
  · rename_i name location hname hplace
    obtain ⟨type, -, h⟩ := ok_of_bind h
    cases h
    exact hname
  · cases h

/-- The parameters of a function stand under their names in the order of the keys; those at a place
that is not known are left out. -/
theorem sublist_names_of_parameters
    (h : ∀ e ∈ m, nonEmpty? (e.2.get "name").str? = some e.1)
    (hp : parameters (m.map (·.2)) = .ok ps) : (ps.map (·.name)).Sublist m.keys := by
  obtain ⟨found, hfound, hps⟩ := ok_of_bind hp
  cases hps
  clear hp
  induction m generalizing found with
  | nil =>
    cases hfound
    exact .slnil
  | cons e rest ih =>
    rw [List.map_cons, List.mapM_cons] at hfound
    obtain ⟨first, hfirst, hfound⟩ := ok_of_bind hfound
    obtain ⟨more, hmore, hfound⟩ := ok_of_bind hfound
    cases hfound
    have hrest := ih (fun e he => h e (List.mem_cons_of_mem _ he)) more hmore
    cases first with
    | none => exact hrest.cons _
    | some p =>
      have hkey : some p.name = some e.1 :=
        (name_of_parameter? hfirst).symm.trans
          (nonEmpty?_eq_some_iff.mp (h e List.mem_cons_self)).1
      obtain hkey : p.name = e.1 := Option.some.inj hkey
      change (p.name :: _).Sublist (e.1 :: _)
      rw [hkey]
      exact hrest.cons_cons _

/-- Names of parameters are not empty, and no two are one. -/
theorem Keyed.parameters (h : Keyed m) (hp : Document.parameters (m.map (·.2)) = .ok ps) :
    (ps.map (·.name)).Nodup ∧ ∀ p ∈ ps, p.name ≠ [] := by
  have hsub := sublist_names_of_parameters h.named hp
  refine ⟨h.apart.sublist hsub, fun p hm => ?_⟩
  obtain ⟨e, he, hname⟩ := List.mem_map.mp (hsub.subset (List.mem_map.mpr ⟨p, hm, rfl⟩))
  exact hname ▸ (nonEmpty?_eq_some_iff.mp (h.named e he)).2

theorem functionName_ne_nil (method : Method) (path : Text) :
    functionName method.name path ≠ [] := by
  have hmethod : Text.lower method.name ≠ [] := by cases method <;> decide
  simp [functionName, hmethod]

/-- What is read of an operation has a name and parameters of different names. -/
theorem names_of_endpoint {o : Operation} {f : Endpoint} (h : (o.endpoint d).result = .ok f) :
    f.name ≠ [] ∧ (f.parameters.map (·.name)).Nodup ∧ ∀ p ∈ f.parameters, p.name ≠ [] := by
  obtain ⟨raw, hraw, h⟩ := Traced.ok_of_bind h
  obtain ⟨ps, hps, h⟩ := Traced.ok_of_bind h
  obtain ⟨request, -, h⟩ := Traced.ok_of_bind h
  obtain ⟨response, -, h⟩ := Traced.ok_of_bind h
  cases h
  obtain ⟨merged, hmerged, hraw⟩ := Traced.ok_of_bind hraw
  cases hraw
  refine ⟨?_, (keyed_mergeFrom keyed_nil hmerged).parameters hps⟩
  dsimp only
  cases hid : nonEmpty? (o.value.get "operationId").str? with
  | none => exact functionName_ne_nil _ _
  | some name => exact (nonEmpty?_eq_some_iff.mp hid).2

end Parameters

/-- The names of an accepted document. Those of tables and functions differ since they even do so
when they are cleaned, the others because they were read into places of their own. -/
theorem namesApart_of_spec {policy : Name.Policy} {root : Tree} {s : Spec}
    (h : (spec policy root).result = .ok s) : s.NamesApart := by
  have hparsed := parsed_of_spec h
  have hdistinct := s.distinct_iff.mpr hparsed.collisions
  have hfunction {f : Endpoint} (hf : f ∈ s.functions) :
      f.name ≠ [] ∧ (f.parameters.map (·.name)).Nodup ∧ ∀ p ∈ f.parameters, p.name ≠ [] := by
    obtain ⟨o, -, hf⟩ := hparsed.mem_functions_iff.mp hf
    exact names_of_endpoint hf
  refine ⟨?tables, ?columns, ?functions, ?functionsNamed, ?parameters, ?parametersNamed, ?fields⟩
  case tables =>
    exact List.Nodup.of_map Identifier.ofTable (by rw [List.map_map]; exact hdistinct.tables)
  case columns =>
    intro t ht
    have htables := hparsed.tables
    rw [result_tables] at htables
    obtain ⟨e, -, he⟩ := exists_of_mem_mapM htables ht
    obtain ⟨name, -, he⟩ := ok_of_bind he
    exact nodup_columns_of_table he
  case functions => exact List.Nodup.of_map Name.hook (by rw [List.map_map]; exact hdistinct.hooks)
  case functionsNamed => exact fun f hf => (hfunction hf).1
  case parameters => exact fun f hf => (hfunction hf).2.1
  case parametersNamed => exact fun f hf => (hfunction hf).2.2
  case fields => exact fun f hf policy => Endpoint.nodup_fields policy (hfunction hf).2.1

/-- An operation whose parameters have the names that its body would be given. -/
def petEditor : Operation :=
  ⟨.put, "/pets/\x7bbody\x7d",
    .map [(.str "parameters", .list [placed "body" "path", placed "body_2" "query",
      .map [(.str "in", .str "body"), (.str "name", .str "pet"), (.str "schema", petReference)]])],
    .null⟩

def putPetsBody : Endpoint :=
  ⟨"putPetsBody", .put, petEditor.path,
    [⟨"body", .path, false, .string⟩, ⟨"body_2", .query, false, .string⟩],
    some "Pet", none, ""⟩

theorem endpoint_petEditor (d : Document) :
    (petEditor.endpoint d).result = .ok putPetsBody := by
  have hfunction : functionName Method.put.name petEditor.path = "putPetsBody" := by rfl
  exact Operation.endpoint_of hfunction rfl rfl
    (result_requestBody_of_schema rfl (bodyTypeName_petReference _ _)) rfl

/-- Two keys of the entity are one name, and so is the column. The body is the third of its name
among the members of the hook. -/
theorem namesApart_petEditor :
    (spec .standard (single "Pet" (untyped [.null, .str "None"]) petEditor)).result =
        .ok ⟨[⟨"Pet", [untypedColumn .standard "None"]⟩], [putPetsBody]⟩ ∧
      Spec.NamesApart ⟨[⟨"Pet", [untypedColumn .standard "None"]⟩], [putPetsBody]⟩ ∧
      (putPetsBody.hook .standard).fields.map (·.name) =
        ["body", "body_2", "body_3"].map Text.ofString := by
  have hown : withOwn (untyped [.null, .str "None"]) .empty =
      .ok ⟨[Text.ofString "None"].map fun n => (n, .map []), []⟩ := rfl
  have hspec : (spec .standard (single "Pet" (untyped [.null, .str "None"]) petEditor)).result =
      .ok ⟨[⟨"Pet", [untypedColumn .standard "None"]⟩], [putPetsBody]⟩ :=
    spec_single rfl rfl (result_table_untyped _ _ _ hown)
      (endpoint_petEditor _) (by decide +kernel)
  exact ⟨hspec, namesApart_of_spec hspec, by decide +kernel⟩

end Document
end ApiScaffold
