import ApiScaffold.Proofs.Document.Entries
import ApiScaffold.Proofs.Document.Steps

namespace ApiScaffold.Document

/-- An entity that says nothing of its properties but their keys. -/
def untyped (keys : List Tree) : Tree :=
  .map [(.str "properties", .map (keys.map fun k => (k, .map [])))]

def untypedColumn (policy : Name.Policy) (name : Text) : Column :=
  ⟨name, .unknown, true, policy.isPrimaryKey name⟩

theorem columns_untyped (policy : Name.Policy) (names : List Text) :
    columns policy ⟨names.map fun n => (n, .map []), []⟩ =
      .ok (names.map (untypedColumn policy)) := by
  unfold columns
  dsimp only
  induction names with
  | nil => rfl
  | cons name rest ih =>
    have hcolumn : column policy [] name (.map []) = .ok (untypedColumn policy name) := by
      rw [column, dataType_empty]
      rfl
    rw [List.map_cons, List.mapM_cons, hcolumn, ih]
    rfl

/-- Such an entity has a column without a type for every name among its keys. -/
theorem result_table_untyped (policy : Name.Policy) (d : Document) (name : Text)
    {keys : List Tree} {names : List Text}
    (h : withOwn (untyped keys) .empty = .ok ⟨names.map fun n => (n, .map []), []⟩) :
    (d.table policy name (untyped keys)).result =
      .ok ⟨name, names.map (untypedColumn policy)⟩ := by
  have hmembers : (d.members (untyped keys)).result =
      .ok ⟨names.map fun n => (n, .map []), []⟩ := by
    rw [result_members_of_single rfl rfl rfl, h]
  exact result_table_of_members hmembers (columns_untyped policy names)

section Single
variable {d : Document} {o : Operation} {f : Endpoint} {key item : Tree}

/-- Where one method of a path is an object, the path has one function. -/
theorem endpointsOf_alone (ho : o.IsOf key item) (hf : (o.endpoint d).result = .ok f)
    (halone : ∀ m ≠ o.method, (item.get m.key).map?.isSome = false) {methods : List Method}
    (hn : methods.Nodup) :
    (d.endpointsOf key item methods).result = .ok (if o.method ∈ methods then [f] else []) := by
  induction methods with
  | nil => rfl
  | cons m rest ih =>
    obtain ⟨hm, hrest⟩ := List.nodup_cons.mp hn
    rw [endpointsOf]
    by_cases he : m = o.method
    · subst he
      have hobject : (item.get o.method.key).map?.isSome = true := ho.value ▸ ho.isObject
      rw [ho.endpoint_eq ho.path] at hf
      rw [if_pos hobject, if_pos List.mem_cons_self, Traced.result_bind_of_ok ho.path,
        Traced.result_bind_of_ok hf, Traced.result_bind_of_ok (ih hrest), if_neg hm]
      rfl
    · have hmem : (o.method ∈ m :: rest) = (o.method ∈ rest) := by
        simp [List.mem_cons, Ne.symm he]
      simp only [halone m he, hmem]
      exact ih hrest

/-- A description of one entity and one operation. -/
def single (name : Text) (entity : Tree) (o : Operation) : Tree :=
  .map [(.str "definitions", .map [(.str name, entity)]),
    (.str "paths", .map [(.str o.path, .map [(.str o.method.key, o.value)])])]

theorem isOf_single (hvalue : o.value.map?.isSome = true) (hshared : o.shared = .null) :
    o.IsOf (.str o.path) (.map [(.str o.method.key, o.value)]) := by
  obtain ⟨method, path, value, shared⟩ := o
  obtain rfl : shared = .null := hshared
  cases method <;> constructor <;> dsimp only [Method.key] <;> first | rfl | exact hvalue

theorem followObject_single (d : Document) (method : Method) (value : Tree) :
    (d.followObject (.map [(.str method.key, value)])).result =
      .ok (some (.map [(.str method.key, value)])) := by
  cases method <;> dsimp only [Method.key] <;> rfl

theorem alone_single (value : Tree) {m method : Method} (h : m ≠ method) :
    ((Tree.map [(.str method.key, value)]).get m.key).map?.isSome = false := by
  cases m <;> cases method <;> first | rfl | exact absurd rfl h

variable {policy : Name.Policy} {name : Text} {entity : Tree} {t : Table}

theorem declares_single (hvalue : o.value.map?.isSome = true) (hshared : o.shared = .null) :
    Declares ⟨single name entity o⟩ o :=
  ⟨_, _, _, _, rfl, List.mem_cons_self, followObject_single _ _ _, isOf_single hvalue hshared⟩

/-- It is read as the table of the entity and the function of the operation. -/
theorem spec_single (hvalue : o.value.map?.isSome = true) (hshared : o.shared = .null)
    (ht : (table policy ⟨single name entity o⟩ name entity).result = .ok t)
    (hf : (o.endpoint ⟨single name entity o⟩).result = .ok f)
    (hc : (Spec.mk [t] [f]).collisions = []) :
    (spec policy (single name entity o)).result = .ok ⟨[t], [f]⟩ := by
  have htables : (tables policy ⟨single name entity o⟩ [(.str name, entity)]).result =
      .ok [t] := by
    have hname : nameOf (.str name) = .ok name := rfl
    rw [tables, Traced.result_bind_of_ok hname, Traced.result_bind_of_ok ht]
    rfl
  have hfunctions : (endpoints ⟨single name entity o⟩
      [(.str o.path, .map [(.str o.method.key, o.value)])]).result = .ok [f] := by
    have hpath := endpointsOf_alone (isOf_single hvalue hshared) hf
      (fun m hm => alone_single o.value hm) (show Method.all.Nodup by decide)
    rw [if_pos (Method.mem_all o.method)] at hpath
    rw [endpoints, Traced.result_bind_of_ok (followObject_single _ _ _),
      Traced.result_bind_of_ok hpath]
    rfl
  have hparsed : Parsed policy ⟨single name entity o⟩ ⟨[t], [f]⟩ :=
    ⟨htables, ⟨_, rfl, hfunctions⟩, hc⟩
  exact hparsed.result_spec rfl

end Single

/-- A parameter of a name at a place. -/
def placed (name place : Text) : Tree :=
  .map [(.str "name", .str name), (.str "in", .str place)]

def referring (r : Text) : Tree :=
  .map [(.str "$ref", .str r)]

theorem bodyTypeName_referring (function role r : Text) :
    bodyTypeName (referring r) function role = .ok (referenceName r) :=
  bodyTypeName_of_bare function role rfl

theorem bodyType_referring (function role r : Text) :
    bodyType (referring r) function role = referenceName r :=
  bodyType_of_bare function role rfl

def petReference : Tree :=
  referring "#/definitions/Pet"

theorem bodyTypeName_petReference (function role : Text) :
    bodyTypeName petReference function role = .ok "Pet" := by
  have hname : referenceName "#/definitions/Pet" = "Pet" := by decide
  rw [petReference, bodyTypeName_referring, hname]

end ApiScaffold.Document
