import ApiScaffold.DataType

namespace ApiScaffold

inductive Method where
  | get
  | post
  | put
  | patch
  | delete
  | head
  | options
  | trace
  deriving DecidableEq, Repr, Inhabited

inductive Location where
  | path
  | query
  | header
  | cookie
  deriving DecidableEq, Repr, Inhabited

structure Column where
  name : Text
  type : DataType
  nullable : Bool
  primaryKey : Bool
  deriving Repr, Inhabited

/-- An entity as a relation. -/
structure Table where
  name : Text
  columns : List Column
  deriving Repr, Inhabited

structure Parameter where
  name : Text
  location : Location
  required : Bool
  type : DataType
  deriving Repr, Inhabited

/-- One method on one path. A body type is a name such as `Pet[]`, or a placeholder for a schema
without a name. -/
structure Endpoint where
  name : Text
  method : Method
  path : Text
  parameters : List Parameter
  requestBody : Option Text
  responseBody : Option Text
  summary : Text
  deriving Repr, Inhabited

structure Spec where
  tables : List Table
  functions : List Endpoint
  deriving Repr, Inhabited

namespace Method

/-- The order in which the methods of a path are read. -/
def all : List Method :=
  [get, post, put, patch, delete, head, options, trace]

def name : Method → String
  | get => "GET"
  | post => "POST"
  | put => "PUT"
  | patch => "PATCH"
  | delete => "DELETE"
  | head => "HEAD"
  | options => "OPTIONS"
  | trace => "TRACE"

def key : Method → String
  | get => "get"
  | post => "post"
  | put => "put"
  | patch => "patch"
  | delete => "delete"
  | head => "head"
  | options => "options"
  | trace => "trace"

def ofName? (s : Text) : Option Method :=
  all.find? (·.name == s)

end Method

namespace Location

def all : List Location :=
  [path, query, header, cookie]

def name : Location → String
  | path => "path"
  | query => "query"
  | header => "header"
  | cookie => "cookie"

def ofName? (s : Text) : Option Location :=
  all.find? (·.name == s)

end Location

def Table.primaryKey (t : Table) : List Text :=
  (t.columns.filter (·.primaryKey)).map (·.name)

def Endpoint.located (f : Endpoint) (l : Location) : List Parameter :=
  f.parameters.filter (·.location == l)

def Endpoint.pathParameters (f : Endpoint) : List Parameter :=
  f.located .path

def Endpoint.queryParameters (f : Endpoint) : List Parameter :=
  f.located .query

/-- A body type of no characters counts as none. -/
def nonEmpty? : Option Text → Option Text
  | some s => if s = "" then none else some s
  | none => none

theorem nonEmpty?_eq_some_iff {o : Option Text} {s : Text} :
    nonEmpty? o = some s ↔ o = some s ∧ s ≠ [] := by
  cases o with
  | none => simp [nonEmpty?]
  | some t =>
    change (if t = [] then none else some t) = some s ↔ some t = some s ∧ s ≠ []
    split
    · simp_all
    · simp_all [eq_comm]

theorem nonEmpty?_eq_none_iff {o : Option Text} : nonEmpty? o = none ↔ o = none ∨ o = some [] := by
  cases o with
  | none => simp [nonEmpty?]
  | some t =>
    change (if t = [] then none else some t) = none ↔ some t = none ∨ some t = some []
    simp

end ApiScaffold
