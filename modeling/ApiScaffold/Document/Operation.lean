import ApiScaffold.Document.Body
import ApiScaffold.Document.Schema
import ApiScaffold.Name.Pascal
import ApiScaffold.Spec.Basic

namespace ApiScaffold.Document

/-- Parameters by their names, which are not empty. A later one replaces an earlier one of its
name in its place. -/
def mergeFrom (d : Document) (merged : Assoc Tree) : List Tree → Traced (Assoc Tree)
  | [] => pure merged
  | raw :: rest => do
    match ← d.followObject raw with
    | none =>
      Traced.note (.droppedParameter raw)
      mergeFrom d merged rest
    | some parameter =>
      match nonEmpty? (parameter.get "name").str? with
      | none =>
        Traced.note (.namelessParameter parameter)
        mergeFrom d merged rest
      | some name => mergeFrom d (merged.put name parameter) rest

/-- The parameters of a path and of an operation on it together. -/
def mergeParameters (d : Document) (shared own : Tree) : Traced (List Tree) := do
  let merged ← d.mergeFrom [] (shared.items ++ own.items)
  pure (merged.map (·.2))

/-- The type of a parameter: that of its schema, or the one that it has itself. -/
def parameterType (raw : Tree) : Except Fault DataType :=
  match raw.get? "schema" with
  | some schema => dataType schema
  | none => if raw.has "type" then dataType raw else .ok .string

/-- A parameter at a place that is not known belongs to no function. -/
def parameter? (raw : Tree) : Except Fault (Option Parameter) :=
  let place := (((raw.get? "in").getD (.str "query")).str?).bind Location.ofName?
  match (raw.get "name").str?, place with
  | some name, some location => do
    .ok (some ⟨name, location, (raw.get "required").isTruthy, ← parameterType raw⟩)
  | _, _ => .ok none

def parameters (raw : List Tree) : Except Fault (List Parameter) := do
  .ok ((← raw.mapM parameter?).filterMap id)

/-- The name of a function that has none: `GET /pets/{petId}` is `getPetsPetId`. -/
def functionName (method : Text) (path : Text) : Text :=
  Text.lower method ++
    (Text.pieces (.char '/') path).flatMap Name.pascal

def endpoint (d : Document) (method : Method) (path : Text) (operation shared : Tree) :
    Traced Endpoint := do
  let name :=
    (nonEmpty? (operation.get "operationId").str?).getD (functionName method.name path)
  let raw ← d.mergeParameters shared (operation.get "parameters")
  let parameters ← parameters raw
  let request ← d.requestBody name operation raw
  let response ← d.responseBody name operation
  pure
    { name, method, path, parameters
      requestBody := request
      responseBody := response
      summary := (operation.get "summary").str?.getD "" }

/-- The functions of a path, for the methods that are objects. -/
def endpointsOf (d : Document) (path item : Tree) : List Method → Traced (List Endpoint)
  | [] => pure []
  | method :: rest => do
    let operation := item.get method.key
    if operation.map?.isSome then
      let f ← d.endpoint method (← nameOf path) operation (item.get "parameters")
      let fs ← endpointsOf d path item rest
      pure (f :: fs)
    else endpointsOf d path item rest

def endpoints (d : Document) : Tree.Entries → Traced (List Endpoint)
  | [] => pure []
  | (path, raw) :: rest => do
    match ← d.followObject raw with
    | none =>
      Traced.note (.skippedPath path)
      endpoints d rest
    | some item =>
      let fs ← d.endpointsOf path item Method.all
      let more ← endpoints d rest
      pure (fs ++ more)

/-- The schemas that are entities, wherever the version of the description keeps them. -/
def entitySchemas (d : Document) : Tree.Entries :=
  let schemas :=
    match (d.root.get "components").get "schemas" with
    | .null => d.root.get "definitions"
    | schemas => schemas
  schemas.map?.getD []

/-- The column of a property; one that no part of the schema requires may be null. -/
def column (policy : Name.Policy) (required : List Text) (name : Text) (schema : Tree) :
    Except Fault Column := do
  .ok ⟨name, ← dataType schema, name ∉ required, policy.isPrimaryKey name⟩

def columns (policy : Name.Policy) (m : Members) : Except Fault (List Column) :=
  m.properties.mapM fun p => column policy m.required p.1 p.2

/-- A table has a column for every property. -/
def table (policy : Name.Policy) (d : Document) (name : Text) (schema : Tree) :
    Traced Table := do
  let m ← d.members schema
  pure ⟨name, ← columns policy m⟩

def tables (policy : Name.Policy) (d : Document) : Tree.Entries → Traced (List Table)
  | [] => pure []
  | (name, schema) :: rest => do
    let t ← d.table policy (← nameOf name) schema
    let ts ← tables policy d rest
    pure (t :: ts)

/-- The specification of a document that is an object. It is refused when generated names would
collide. -/
def spec (policy : Name.Policy) (root : Tree) : Traced Spec :=
  if root.map?.isNone then Traced.fail .notObject
  else do
    let d : Document := ⟨root⟩
    let tables ← d.tables policy d.entitySchemas
    let paths := root.get "paths"
    match if paths.isTruthy then paths.map? else some [] with
    | none => Traced.fail .pathsNotObject
    | some paths =>
      let functions ← d.endpoints paths
      let spec := Spec.mk tables functions
      if spec.collisions.isEmpty then pure spec else Traced.fail (.collisions spec.collisions)

end ApiScaffold.Document
