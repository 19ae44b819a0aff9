import ApiScaffold.Proofs.Document.Specification

namespace ApiScaffold.Document

theorem Traced.result_liftM {α : Type} (x : Except Fault α) : (liftM x : Traced α).result = x :=
  rfl

/-- The table of one entity. -/
def entityTable (policy : Name.Policy) (d : Document) (e : Tree × Tree) : Except Fault Table := do
  (d.table policy (← nameOf e.1) e.2).result

/-- The functions of one path. -/
def pathEndpoints (d : Document) (e : Tree × Tree) : Except Fault (List Endpoint) := do
  match ← (d.followObject e.2).result with
  | none => .ok []
  | some item => (d.endpointsOf e.1 item Method.all).result

/-- The specification, unless generated names would collide. -/
def accepted (s : Spec) : Except Fault Spec :=
  if s.collisions.isEmpty then .ok s else .error (.collisions s.collisions)

/-- What is read of a document that is an object, without the notes. -/
def reading (policy : Name.Policy) (d : Document) : Except Fault Spec := do
  let tables ← d.entitySchemas.mapM (d.entityTable policy)
  match d.pathItems with
  | none => .error .pathsNotObject
  | some items => do
    let functions ← items.mapM d.pathEndpoints
    accepted ⟨tables, functions.flatten⟩

/-- A table has the columns of the members of its schema. -/
theorem result_table_of_members {policy : Name.Policy} {d : Document} {name : Text} {schema : Tree}
    {m : Members} {cs : List Column} (hm : (d.members schema).result = .ok m)
    (hc : columns policy m = .ok cs) : (d.table policy name schema).result = .ok ⟨name, cs⟩ := by
  have hcolumns : (liftM (columns policy m) : Traced (List Column)).result = .ok cs := by
    rw [Traced.result_liftM, hc]
  rw [table, Traced.result_bind_of_ok hm, Traced.result_bind_of_ok hcolumns]
  rfl

theorem entityTable_of_members {policy : Name.Policy} {d : Document} {name : Text} {schema : Tree}
    {m : Members} {cs : List Column} (hm : (d.members schema).result = .ok m)
    (hc : columns policy m = .ok cs) : d.entityTable policy (.str name, schema) = .ok ⟨name, cs⟩ := by
  have hname : nameOf (.str name) = .ok name := rfl
  rw [entityTable, hname]
  exact result_table_of_members hm hc

/-- Every entity is read on its own. -/
theorem result_tables (policy : Name.Policy) (d : Document) (entries : Tree.Entries) :
    (d.tables policy entries).result = entries.mapM (d.entityTable policy) := by
  induction entries with
  | nil => rfl
  | cons e rest ih =>
    rw [tables, List.mapM_cons, entityTable, ← ih]
    simp only [Traced.result_bind, Traced.result_liftM, Traced.result_pure, bind_assoc]
    rfl

/-- So is every path. -/
theorem result_endpoints (d : Document) (entries : Tree.Entries) :
    (d.endpoints entries).result = List.flatten <$> entries.mapM d.pathEndpoints := by
  induction entries with
  | nil => rfl
  | cons e rest ih =>
    rw [endpoints, List.mapM_cons, pathEndpoints, Traced.result_bind, bind_assoc, map_bind]
    congr 1
    funext found
    cases found with
    | none =>
      change (d.endpoints rest).result = _
      rw [ih]
      cases rest.mapM d.pathEndpoints <;> rfl
    | some item =>
      dsimp only
      rw [Traced.result_bind, map_bind]
      congr 1
      funext fs
      rw [Traced.result_bind, ih]
      cases rest.mapM d.pathEndpoints <;> rfl

theorem result_spec (policy : Name.Policy) (root : Tree) :
    (spec policy root).result =
      if root.map?.isNone then .error .notObject else reading policy ⟨root⟩ := by
  unfold spec
  split
  · rfl
  · rw [Traced.result_bind, result_tables, reading]
    congr 1
    funext tables
    change _ = match pathItems ⟨root⟩ with | none => _ | some items => _
    dsimp only
    unfold pathItems
    dsimp only
    split
    · rename_i hnone
      rw [hnone]
      rfl
    · rename_i items hitems
      rw [Traced.result_bind, result_endpoints, hitems]
      dsimp only
      cases items.mapM (pathEndpoints ⟨root⟩) with
      | error e => rfl
      | ok functions =>
        change (if _ then _ else _ : Traced Spec).result = accepted ⟨tables, functions.flatten⟩
        unfold accepted
        split <;> rfl

end ApiScaffold.Document
