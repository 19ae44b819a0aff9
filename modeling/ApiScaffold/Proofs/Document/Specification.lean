import ApiScaffold.Document.Operation

namespace ApiScaffold.Document

theorem Traced.ok_of_bind {α β : Type} {x : Traced α} {g : α → Traced β} {b : β}
    (h : (x >>= g).result = .ok b) : ∃ a, x.result = .ok a ∧ (g a).result = .ok b := by
  rw [Traced.result_bind] at h
  cases hx : x.result with
  | error e =>
    rw [hx] at h
    cases h
  | ok a =>
    rw [hx] at h
    exact ⟨a, rfl, h⟩

theorem Traced.result_bind_of_ok {α β : Type} {x : Traced α} {a : α} (hx : x.result = .ok a)
    (g : α → Traced β) : (x >>= g).result = (g a).result := by
  rw [Traced.result_bind, hx]
  rfl

/-- The entries of the paths. What counts as absent has none. -/
def pathItems (d : Document) : Option Tree.Entries :=
  if (d.root.get "paths").isTruthy then (d.root.get "paths").map? else some []

/-- What is read of a document that is accepted. -/
structure Parsed (policy : Name.Policy) (d : Document) (s : Spec) : Prop where
  tables : (d.tables policy d.entitySchemas).result = .ok s.tables
  functions : ∃ items, d.pathItems = some items ∧ (d.endpoints items).result = .ok s.functions
  collisions : s.collisions = []

theorem parsed_of_spec {policy : Name.Policy} {root : Tree} {s : Spec}
    (h : (spec policy root).result = .ok s) : Parsed policy ⟨root⟩ s := by
  unfold spec at h
  split at h
  · cases h
  · obtain ⟨tables, ht, h⟩ := Traced.ok_of_bind h
    dsimp only at h
    split at h
    · cases h
    · rename_i items hitems
      obtain ⟨functions, hf, h⟩ := Traced.ok_of_bind h
      split at h
      · rename_i hc
        cases h
        exact ⟨ht, ⟨items, hitems, hf⟩, List.isEmpty_iff.mp hc⟩
      · cases h

theorem Parsed.result_spec {policy : Name.Policy} {root : Tree} {s : Spec}
    (h : Parsed policy ⟨root⟩ s) (hroot : root.map?.isSome = true) :
    (Document.spec policy root).result = .ok s := by
  obtain ⟨items, hitems, hfunctions⟩ := h.functions
  have hpaths : (if (root.get "paths").isTruthy then (root.get "paths").map? else some []) =
      some items := hitems
  have hobject : ¬root.map?.isNone = true := by
    rwa [Option.isNone_iff_eq_none, ← ne_eq, ← Option.isSome_iff_ne_none]
  have hfree : s.collisions.isEmpty = true := List.isEmpty_iff.mpr h.collisions
  rw [Document.spec, if_neg hobject, Traced.result_bind_of_ok h.tables]
  dsimp only
  rw [hpaths]
  dsimp only
  rw [Traced.result_bind_of_ok hfunctions, if_pos hfree]
  rfl

section Tables
variable {policy : Name.Policy} {d : Document}

theorem name_of_table {name : Text} {schema : Tree} {t : Table}
    (h : (d.table policy name schema).result = .ok t) : t.name = name := by
  obtain ⟨m, -, h⟩ := Traced.ok_of_bind h
  obtain ⟨columns, -, h⟩ := Traced.ok_of_bind h
  cases h
  rfl

/-- An entity without properties has a table without columns. -/
theorem result_table_empty (policy : Name.Policy) (d : Document) (name : Text) :
    (d.table policy name (.map [])).result = .ok ⟨name, []⟩ := by
  cbv

theorem result_tables_empty (policy : Name.Policy) (d : Document) (names : List Text) :
    (d.tables policy (names.map fun n => (.str n, .map []))).result =
      .ok (names.map fun n => ⟨n, []⟩) := by
  induction names with
  | nil => rfl
  | cons name rest ih =>
    have hname : (nameOf (.str name) : Except Fault Text) = .ok name := rfl
    rw [List.map_cons, tables, Traced.result_bind_of_ok hname,
      Traced.result_bind_of_ok (result_table_empty policy d name), Traced.result_bind_of_ok ih]
    rfl

/-- Every entity has a table of its name. -/
theorem exists_table_of_mem {entries : Tree.Entries} {ts : List Table}
    (h : (d.tables policy entries).result = .ok ts) {key schema : Tree}
    (hm : (key, schema) ∈ entries) : ∃ t ∈ ts, nameOf key = .ok t.name := by
  induction entries generalizing ts with
  | nil => cases hm
  | cons e rest ih =>
    obtain ⟨name, hname, h⟩ := Traced.ok_of_bind h
    obtain ⟨t, ht, h⟩ := Traced.ok_of_bind h
    obtain ⟨more, hmore, h⟩ := Traced.ok_of_bind h
    cases h
    rcases List.mem_cons.mp hm with rfl | hm
    · exact ⟨t, List.mem_cons_self, name_of_table ht ▸ hname⟩
    · obtain ⟨u, hu, hn⟩ := ih hmore hm
      exact ⟨u, List.mem_cons_of_mem _ hu, hn⟩

end Tables

/-- An operation on a path, with the parameters that all operations on the path share. -/
structure Operation where
  method : Method
  path : Text
  value : Tree
  shared : Tree

namespace Operation

def endpoint (d : Document) (o : Operation) : Traced Endpoint :=
  d.endpoint o.method o.path o.value o.shared

/-- The function of an operation is put together of its parameters and its two bodies. -/
theorem endpoint_of {d : Document} {o : Operation} {name : Text} {raw : List Tree}
    {ps : List Parameter} {request response : Option Text}
    (hname : (nonEmpty? (o.value.get "operationId").str?).getD
      (functionName o.method.name o.path) = name)
    (hraw : (d.mergeParameters o.shared (o.value.get "parameters")).result = .ok raw)
    (hps : parameters raw = .ok ps)
    (hrequest : (d.requestBody name o.value raw).result = .ok request)
    (hresponse : (d.responseBody name o.value).result = .ok response) :
    (o.endpoint d).result =
      .ok ⟨name, o.method, o.path, ps, request, response,
        (o.value.get "summary").str?.getD ""⟩ := by
  rw [endpoint, Document.endpoint, hname]
  rw [Traced.result_bind_of_ok hraw, Traced.result_bind_of_ok hps,
    Traced.result_bind_of_ok hrequest, Traced.result_bind_of_ok hresponse]
  rfl

/-- The operation is one of those of a path. -/
structure IsOf (o : Operation) (key item : Tree) : Prop where
  path : nameOf key = .ok o.path
  value : item.get o.method.key = o.value
  isObject : o.value.map?.isSome = true
  shared : item.get "parameters" = o.shared

theorem IsOf.endpoint_eq {d : Document} {o : Operation} {key item : Tree} {name : Text}
    (h : o.IsOf key item) (hname : nameOf key = .ok name) :
    o.endpoint d = d.endpoint o.method name (item.get o.method.key) (item.get "parameters") := by
  have hpath : o.path = name := Except.ok.inj (h.path.symm.trans hname)
  rw [endpoint, hpath, h.value, h.shared]

end Operation

/-- The operation stands in the document. -/
def Declares (d : Document) (o : Operation) : Prop :=
  ∃ items key raw item, d.pathItems = some items ∧ (key, raw) ∈ items ∧
    (d.followObject raw).result = .ok (some item) ∧ o.IsOf key item

section Functions
variable {d : Document} {fs : List Endpoint} {f : Endpoint}

theorem mem_endpointsOf_iff {key item : Tree} {methods : List Method}
    (h : (d.endpointsOf key item methods).result = .ok fs) :
    f ∈ fs ↔ ∃ o : Operation, o.method ∈ methods ∧ o.IsOf key item ∧
      (o.endpoint d).result = .ok f := by
  induction methods generalizing fs with
  | nil =>
    cases h
    simp
  | cons m rest ih =>
    rw [endpointsOf] at h
    split at h
    · rename_i hobject
      obtain ⟨name, hname, h⟩ := Traced.ok_of_bind h
      obtain ⟨g, hg, h⟩ := Traced.ok_of_bind h
      obtain ⟨more, hmore, h⟩ := Traced.ok_of_bind h
      cases h
      have hfirst : f = g ↔ ∃ o : Operation, o.method = m ∧ o.IsOf key item ∧
          (o.endpoint d).result = .ok f := by
        constructor
        · rintro rfl
          exact ⟨⟨m, name, item.get m.key, item.get "parameters"⟩, rfl,
            ⟨hname, rfl, hobject, rfl⟩, hg⟩
        · rintro ⟨o, rfl, ho, hf⟩
          rw [ho.endpoint_eq hname] at hf
          exact Except.ok.inj (hf.symm.trans hg)
      simp only [List.mem_cons, ih hmore, hfirst, or_and_right, exists_or]
    · rename_i hobject
      have hnone (o : Operation) (ho : o.IsOf key item) : o.method ≠ m := by
        rintro rfl
        exact hobject (ho.value ▸ ho.isObject)
      rw [ih h]
      constructor
      · rintro ⟨o, hm, ho, hf⟩
        exact ⟨o, List.mem_cons_of_mem _ hm, ho, hf⟩
      · rintro ⟨o, hm, ho, hf⟩
        exact ⟨o, (List.mem_cons.mp hm).resolve_left (hnone o ho), ho, hf⟩

theorem Method.mem_all (m : Method) : m ∈ Method.all := by
  cases m <;> decide

theorem mem_endpoints_iff {items : Tree.Entries} (h : (d.endpoints items).result = .ok fs) :
    f ∈ fs ↔ ∃ o : Operation, (∃ key raw item, (key, raw) ∈ items ∧
      (d.followObject raw).result = .ok (some item) ∧ o.IsOf key item) ∧
      (o.endpoint d).result = .ok f := by
  induction items generalizing fs with
  | nil =>
    cases h
    simp
  | cons e rest ih =>
    obtain ⟨key, raw⟩ := e
    obtain ⟨found, hfound, h⟩ := Traced.ok_of_bind h
    cases found with
    | none =>
      obtain ⟨_, -, h⟩ := Traced.ok_of_bind h
      rw [ih h]
      constructor
      · rintro ⟨o, ⟨k, r, item, hm, ho⟩, hf⟩
        exact ⟨o, ⟨k, r, item, List.mem_cons_of_mem _ hm, ho⟩, hf⟩
      · rintro ⟨o, ⟨k, r, item, hm, hitem, ho⟩, hf⟩
        rcases List.mem_cons.mp hm with he | hm
        · cases he
          cases hfound.symm.trans hitem
        · exact ⟨o, ⟨k, r, item, hm, hitem, ho⟩, hf⟩
    | some item =>
      obtain ⟨here, hhere, h⟩ := Traced.ok_of_bind h
      obtain ⟨more, hmore, h⟩ := Traced.ok_of_bind h
      cases h
      rw [List.mem_append, mem_endpointsOf_iff hhere, ih hmore]
      constructor
      · rintro (⟨o, -, ho, hf⟩ | ⟨o, ⟨k, r, i, hm, ho⟩, hf⟩)
        · exact ⟨o, ⟨key, raw, item, List.mem_cons_self, hfound, ho⟩, hf⟩
        · exact ⟨o, ⟨k, r, i, List.mem_cons_of_mem _ hm, ho⟩, hf⟩
      · rintro ⟨o, ⟨k, r, i, hm, hitem, ho⟩, hf⟩
        rcases List.mem_cons.mp hm with he | hm
        · cases he
          obtain rfl : item = i := by simpa using hfound.symm.trans hitem
          exact .inl ⟨o, Method.mem_all _, ho, hf⟩
        · exact .inr ⟨o, ⟨k, r, i, hm, hitem, ho⟩, hf⟩

/-- The functions of an accepted document are those of its operations. -/
theorem Parsed.mem_functions_iff {policy : Name.Policy} {s : Spec} (h : Parsed policy d s) :
    f ∈ s.functions ↔ ∃ o, d.Declares o ∧ (o.endpoint d).result = .ok f := by
  obtain ⟨items, hitems, hfunctions⟩ := h.functions
  rw [mem_endpoints_iff hfunctions]
  constructor
  · rintro ⟨o, ⟨key, raw, item, ho⟩, hf⟩
    exact ⟨o, ⟨items, key, raw, item, hitems, ho⟩, hf⟩
  · rintro ⟨o, ⟨items', key, raw, item, hitems', ho⟩, hf⟩
    obtain rfl : items = items' := Option.some.inj (hitems.symm.trans hitems')
    exact ⟨o, ⟨key, raw, item, ho⟩, hf⟩

end Functions

end ApiScaffold.Document
