import ApiScaffold.Document.Type
import ApiScaffold.Number.Numeral
import ApiScaffold.Text.Case

namespace ApiScaffold.Document

/-- A present value that is not null. -/
def present? (t : Tree) (name : Text) : Option Tree :=
  (t.get? name).filter (!·.isNull)

/-- The media type without its parameters. -/
def mediaType (name : Text) : Text :=
  Text.lower (Text.trim (name.takeWhile (· != .char ';')))

def isJsonType (name : Text) : Bool :=
  (Text.ofString "+json").isSuffixOf name

/-- The content of the JSON media type: `application/json` itself, or else the first type that
ends in `+json`. -/
def jsonContent? (media : Assoc Tree) : Option Tree :=
  ((media.get? "application/json").filter (!·.isNull)).or
    ((media.find? fun e => isJsonType e.1).map (·.2))

/-- The schema of the JSON media type. -/
def jsonSchema (content : Tree) : Except Fault (Option Tree) :=
  match content.map? with
  | none => .ok none
  | some entries => do
    let names ← entries.mapM fun e => do .ok (mediaType (← nameOf e.1), e.2)
    .ok ((jsonContent? (.ofList names)).bind (present? · "schema"))

/-- An array that is no reference. -/
def IsArray (schema : Tree) : Prop :=
  (reference? schema).isNone ∧ (schema.get "type").str? = some ("array" : Text)

instance (schema : Tree) : Decidable (IsArray schema) :=
  inferInstanceAs (Decidable (_ ∧ _))

/-- Goes through the arrays around a schema inside those of the given labels, and counts them.
Whoever comes to one of these again goes around in it for ever. -/
def unwrapWithin (around : List Nat) (schema : Tree) : Except Fault (Tree × Nat) :=
  if IsArray schema then
    match schema with
    | .recurring label t =>
      if label ∈ around then .error .looping else unwrapWithin (label :: around) t
    | schema =>
      match _h : schema.get? "items" with
      | some items => do
        let (inner, depth) ← unwrapWithin around items
        .ok (inner, depth + 1)
      | none => .ok (.null, 1)
  else .ok (schema, 0)
termination_by sizeOf schema
decreasing_by
  · simp only [Tree.recurring.sizeOf_spec]; omega
  · exact Tree.sizeOf_get?_lt ‹_›

/-- What the arrays around a schema hold, and how many they are. -/
def unwrap (schema : Tree) : Except Fault (Tree × Nat) :=
  unwrapWithin [] schema

/-- The name of a body's type: for a reference, or arrays of one, the name that it ends in; for
anything else a placeholder. For an array of itself it is never found. -/
def bodyTypeName (schema : Tree) (function role : Text) : Except Fault Text := do
  let (inner, depth) ← unwrap schema
  match reference? inner with
  | some (.str r) =>
    .ok (referenceName r ++ (List.replicate depth (Text.ofString "[]")).flatten)
  | _ => .ok (DataType.inlineName function role)

/-- The type of a body: the one whose name is found, and the placeholder where none is. -/
def bodyType (schema : Tree) (function role : Text) : Text :=
  match bodyTypeName schema function role with
  | .ok name => name
  | .error _ => DataType.inlineName function role

/-- The status of a success, for a key that spells one. A line feed may follow it. -/
def successCode? (key : Text) : Option Nat :=
  match key with
  | .char '2' :: .char tens :: .char ones :: rest =>
    if rest = [] ∨ rest = "\n" then do
      let tens ← Text.digit? tens
      let ones ← Text.digit? ones
      some (200 + 10 * tens + ones)
    else none
  | _ => none

/-- Inserts behind everything that is not greater, so equal codes keep their order. -/
def insertByCode {α : Type} (code : Nat) (value : α) : List (Nat × α) → List (Nat × α)
  | [] => [(code, value)]
  | e :: rest =>
    if e.1 ≤ code then e :: insertByCode code value rest else (code, value) :: e :: rest

/-- The responses of success by ascending status. -/
def successes (responses : Assoc Tree) : List (Nat × Tree) :=
  responses.foldl
    (fun sorted e =>
      match successCode? e.1 with
      | some code => insertByCode code e.2 sorted
      | none => sorted)
    []

/-- The schema of the first response that has one. -/
def firstSchema (d : Document) : List Tree → Traced (Option Tree)
  | [] => pure none
  | raw :: rest => do
    match ← d.followObject raw with
    | none => firstSchema d rest
    | some response =>
      match ← jsonSchema (response.get "content") with
      | some schema => pure (some schema)
      | none =>
        match present? response "schema" with
        | some schema => pure (some schema)
        | none => firstSchema d rest

def responseBody (d : Document) (function : Text) (operation : Tree) :
    Traced (Option Text) :=
  match (operation.get "responses").map? with
  | some responses => do
    let schema ← d.firstSchema ((successes (← named responses)).map (·.2))
    .lift (schema.mapM fun schema => bodyTypeName schema function "response")
  | none => pure none

/-- The schema of the first body parameter. -/
def bodyParameter (parameters : List Tree) : Option Tree :=
  (parameters.find? fun p => (p.get "in").str? == some ("body" : Text)).bind (present? · "schema")

/-- An operation without a body of its own may have one among its parameters. -/
def requestBody (d : Document) (function : Text) (operation : Tree) (parameters : List Tree) :
    Traced (Option Text) := do
  let schema ←
    match ← d.followObject (operation.get "requestBody") with
    | some body => jsonSchema (body.get "content")
    | none => pure (bodyParameter parameters)
  .lift (schema.mapM fun schema => bodyTypeName schema function "request")

end ApiScaffold.Document
