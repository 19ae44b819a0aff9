import ApiScaffold.Name.Identifier
import ApiScaffold.Name.Policy
import ApiScaffold.Text.Replace

namespace ApiScaffold

/-- The type of a column, parameter or body. The properties of an object keep their order. -/
inductive DataType where
  | primitive (name : Text) (format : Option Text)
  | array (items : DataType)
  | reference (name : Text)
  | object (properties : List (Text × DataType))
  deriving Repr, Inhabited

namespace DataType

/-- The forms that a type can have. -/
inductive Kind where
  | primitive
  | array
  | reference
  | object
  deriving DecidableEq, Repr

namespace Kind

def all : List Kind :=
  [primitive, array, reference, object]

def name : Kind → String
  | primitive => "primitive"
  | array => "array"
  | reference => "reference"
  | object => "object"

def ofName? (s : Text) : Option Kind :=
  all.find? (·.name == s)

end Kind

def kind : DataType → Kind
  | primitive _ _ => .primitive
  | array _ => .array
  | reference _ => .reference
  | object _ => .object

def unknown : DataType :=
  .primitive "unknown" none

def string : DataType :=
  .primitive "string" none

def isPrimitiveName (name : Text) : Bool :=
  name == "integer" || name == "number" || name == "boolean" || name == "string"

def arrays : Nat → DataType → DataType
  | 0, t => t
  | n + 1, t => .array (arrays n t)

/-- Counts the array markers at the end of a name that is given backwards. -/
def splitMarkers : Text → Text × Nat
  | .char ']' :: .char '[' :: rest =>
    let (base, n) := splitMarkers rest
    (base, n + 1)
  | base => (base, 0)

/-- The placeholder for a body whose schema has no name. -/
def inlineName (function role : Text) : Text :=
  "inline_" ++ function ++ "_" ++ role

def ofBase (policy : Name.Policy) (name : Text) : DataType :=
  if policy.isEntity name then .reference name
  else if isPrimitiveName name then .primitive name none
  else if (Text.ofString "inline_").isPrefixOf name then .object []
  else unknown

/-- Reads a body type such as `Pet`, `Pet[]` or `string`. -/
def ofName (policy : Name.Policy) (name : Text) : DataType :=
  let (base, depth) := splitMarkers name.reverse
  arrays depth (ofBase policy base.reverse)

def sqlPrimitive (name : Text) (format : Option Text) : String :=
  if name = "integer" then "INTEGER"
  else if name = "number" then "FLOAT"
  else if name = "boolean" then "BOOLEAN"
  else if name = "string" then
    if format = some ("date-time" : String) then "TIMESTAMP" else "VARCHAR"
  else "TEXT"

/-- The column or argument type: entities and objects are stored as documents. -/
def sql : DataType → String
  | primitive name format => sqlPrimitive name format
  | array items => items.sql ++ "[]"
  | reference _ | object _ => "JSONB"

def clientPrimitive (name : Text) : String :=
  if name = "integer" ∨ name = "number" then "number"
  else if name = "boolean" then "boolean"
  else if name = "string" then "string"
  else "any"

/-- The type expression of the client code: an entity is its interface. -/
def client : DataType → Text
  | primitive name _ => clientPrimitive name
  | array items => items.client ++ "[]"
  | reference name => Identifier.clean "any" name
  | object _ => "Record<string, any>"

/-- Appends the names that are not there yet. -/
def addNames (known new : List Text) : List Text :=
  new.foldl (fun names name => if name ∈ names then names else names ++ [name]) known

mutual

/-- The entities that a type refers to, in the order in which they are first met. -/
def entities : DataType → List Text
  | primitive _ _ => []
  | array items => items.entities
  | reference name => [name]
  | object properties => propertyEntities [] properties

def propertyEntities (known : List Text) : List (Text × DataType) → List Text
  | [] => known
  | (_, t) :: rest => propertyEntities (addNames known t.entities) rest

end

end DataType
end ApiScaffold
