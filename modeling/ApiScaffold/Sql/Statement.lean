import ApiScaffold.DataType
import ApiScaffold.Sql.Keyword
import ApiScaffold.Text.Blank
import ApiScaffold.Text.Lines

namespace ApiScaffold.Sql

/-- The equality of a column and an argument. -/
structure Predicate where
  column : Text
  argument : Text
  deriving DecidableEq, Repr

/-- A line of a function body. An insertion never lists columns. -/
inductive Statement where
  | comment (text : Text)
  | select (table : Text) (filter : List Predicate)
  | insert (table : Text) (returning : Bool)
  | delete (table : Text) (filter : List Predicate) (returning : Bool)
  deriving DecidableEq, Repr

/-- A name with its type: a column, which may be required, or an argument. -/
structure Typed where
  name : Text
  type : Text
  deriving DecidableEq, Repr

structure ColumnDefinition where
  name : Text
  type : Text
  notNull : Bool
  deriving DecidableEq, Repr

structure TableDefinition where
  name : Text
  columns : List ColumnDefinition
  primaryKey : List Text
  deriving DecidableEq, Repr

structure FunctionDefinition where
  name : Text
  arguments : List Typed
  returns : Text
  body : List Statement
  deriving DecidableEq, Repr

def indent : Text :=
  "  "

def Predicate.text (p : Predicate) : Text :=
  quote p.column ++ " = " ++ quote p.argument

def conjunction (ps : List Predicate) : Text :=
  Text.joined " AND " (ps.map Predicate.text)

def filterText (ps : List Predicate) : Text :=
  if ps.isEmpty then "" else " WHERE " ++ conjunction ps

def returningText (returning : Bool) : Text :=
  if returning then " RETURNING *" else ""

/-- A comment has a line for every line of its text, and dollar quotes in it are broken up. -/
def commentLines (text : Text) : List Text :=
  let broken := Text.replacePair (.char '$') (.char '$') "$ $" text
  let lines := Text.splitLines broken
  (if lines.isEmpty then [[]] else lines).map fun line => Text.trimEnd ("-- " ++ line)

def Statement.lines : Statement → List Text
  | comment text => commentLines text
  | select table filter => ["SELECT * FROM " ++ quote table ++ filterText filter ++ ";"]
  | insert table returning =>
    ["INSERT INTO " ++ quote table ++ " DEFAULT VALUES" ++ returningText returning ++ ";"]
  | delete table filter returning =>
    ["DELETE FROM " ++ quote table ++ filterText filter ++ returningText returning ++ ";"]

def Statement.isComment : Statement → Bool
  | comment _ => true
  | _ => false

def ColumnDefinition.text (c : ColumnDefinition) : Text :=
  quote c.name ++ " " ++ c.type ++ (if c.notNull then " NOT NULL" else "")

def keyText (key : List Text) : Text :=
  if key.isEmpty then ""
  else ", PRIMARY KEY (" ++ Text.joined ", " (key.map quote) ++ ")"

/-- The primary key stands behind the last column. -/
def TableDefinition.text (t : TableDefinition) : Text :=
  let body : Text :=
    if t.columns.isEmpty then " ();"
    else
      " (\n" ++ indent ++
        Text.joined (",\n" ++ indent) (t.columns.map ColumnDefinition.text) ++
        keyText t.primaryKey ++ "\n);"
  "CREATE TABLE IF NOT EXISTS " ++ quote t.name ++ body

def Typed.text (a : Typed) : Text :=
  quote a.name ++ " " ++ a.type

def FunctionDefinition.lines (f : FunctionDefinition) : List Text :=
  let opening : List Text :=
    ["CREATE OR REPLACE FUNCTION " ++ quote f.name ++ "(" ++
        Text.joined ", " (f.arguments.map Typed.text) ++ ")",
      "RETURNS " ++ f.returns, "LANGUAGE sql", "AS $$"]
  let closing : Text := "$$;"
  opening ++ (f.body.flatMap Statement.lines).map (indent ++ ·) ++ [closing]

def FunctionDefinition.text (f : FunctionDefinition) : Text :=
  Text.joined "\n" f.lines

/-- An identifier with any number of array markers behind it. -/
def acceptsType (name : Text) : Bool :=
  Identifier.accepts (DataType.splitMarkers name.reverse).1.reverse

def Predicate.isSound (p : Predicate) : Bool :=
  Identifier.accepts p.column && Identifier.accepts p.argument

def Statement.isSound : Statement → Bool
  | comment _ => true
  | select table filter => Identifier.accepts table && filter.all Predicate.isSound
  | insert table _ => Identifier.accepts table
  | delete table filter _ => Identifier.accepts table && filter.all Predicate.isSound

def Typed.isSound (a : Typed) : Bool :=
  Identifier.accepts a.name && acceptsType a.type

def ColumnDefinition.isSound (c : ColumnDefinition) : Bool :=
  Identifier.accepts c.name && acceptsType c.type

def TableDefinition.isSound (t : TableDefinition) : Bool :=
  Identifier.accepts t.name && t.columns.all ColumnDefinition.isSound &&
    t.primaryKey.all Identifier.accepts

def FunctionDefinition.isSound (f : FunctionDefinition) : Bool :=
  Identifier.accepts f.name && f.arguments.all Typed.isSound && acceptsType f.returns &&
    f.body.all Statement.isSound

end ApiScaffold.Sql
