import ApiScaffold.Spec.Depth
import ApiScaffold.Tree

namespace ApiScaffold

def Tree.ofText? : Option Text → Tree
  | some s => .str s
  | none => .null

/-- An object with text keys. -/
def Tree.record (fields : List (Text × Tree)) : Tree :=
  .map (fields.map fun f => (.str f.1, f.2))

mutual

def DataType.dump : DataType → Tree
  | .primitive name format =>
    .record [("kind", .str "primitive"), ("name", .str name), ("format", .ofText? format)]
  | .array items => .record [("kind", .str "array"), ("items", items.dump)]
  | .reference name => .record [("kind", .str "reference"), ("name", .str name)]
  | .object properties =>
    .record [("kind", .str "object"), ("properties", .map (dumpProperties properties))]

def dumpProperties : List (Text × DataType) → Tree.Entries
  | [] => []
  | (name, t) :: rest => (.str name, t.dump) :: dumpProperties rest

end

def Column.dump (c : Column) : Tree :=
  .record [("name", .str c.name), ("type", c.type.dump), ("nullable", .bool c.nullable),
    ("primary_key", .bool c.primaryKey)]

def Table.dump (t : Table) : Tree :=
  .record [("name", .str t.name), ("columns", .list (t.columns.map Column.dump))]

def Parameter.dump (p : Parameter) : Tree :=
  .record [("name", .str p.name), ("location", .str p.location.name),
    ("required", .bool p.required), ("type", p.type.dump)]

def Endpoint.dump (f : Endpoint) : Tree :=
  .record [("name", .str f.name), ("method", .str f.method.name), ("path", .str f.path),
    ("parameters", .list (f.parameters.map Parameter.dump)),
    ("request_body_type", .ofText? f.requestBody),
    ("response_body_type", .ofText? f.responseBody), ("summary", .str f.summary)]

def Spec.dump (s : Spec) : Tree :=
  .record [("tables", .list (s.tables.map Table.dump)),
    ("functions", .list (s.functions.map Endpoint.dump))]

/-- A type as data, unless it is nested too deep. -/
def DataType.dump? (t : DataType) : Option Tree :=
  if t.isShallow .alone 0 then some t.dump else none

/-- A specification as data, unless a type in it is nested too deep. -/
def Spec.dump? (s : Spec) : Option Tree :=
  if s.isShallow then some s.dump else none

/-- What is said of a type that is nested too deep to be data. -/
def DataType.depthMessage : String :=
  "Maximum serialization depth exceeded"

end ApiScaffold
