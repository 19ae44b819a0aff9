import ApiScaffold.Checked
import ApiScaffold.Sql.Statement
import ApiScaffold.Tree.Shown

namespace ApiScaffold.Sql

/-- Anything that is rendered. -/
inductive Node where
  | predicate (p : Predicate)
  | statement (s : Statement)
  | column (c : ColumnDefinition)
  | table (t : TableDefinition)
  | argument (a : Typed)
  | function (f : FunctionDefinition)
  deriving Repr

/-- The forms in which a node is given by its fields. -/
inductive Form where
  | comment
  | predicate
  | select
  | insert
  | delete
  | column
  | table
  | argument
  | function
  deriving DecidableEq, Repr

/-- The value of a field: plain data, or nodes that were built before. -/
inductive Slot where
  | plain (t : Tree)
  | built (n : Node)
  | several (slots : List Slot)
  deriving Repr

abbrev Fields := List (Text × Slot)

namespace Slot
open Checked
variable {α : Type}

def field (fields : Fields) (name : Text) (default : Option α) (check : Slot → Checked α) :
    Checked α :=
  match fields.find? (·.1 == name), default with
  | some (_, slot), _ => (check slot).under (.field name)
  | none, some a => .valid a
  | none, none => (issue .missing).under (.field name)

def tree (check : Tree → Checked α) : Slot → Checked α
  | .plain t => check t
  | .built _ | .several _ => check (.list [])

/-- A text that passes a test of its form. -/
def testedText (test : Text → Bool) (fault : Text → Fault) : Slot → Checked Text
  | .plain (.str s) => if test s then .valid s else issue (fault s)
  | _ => issue .notText

def identifier : Slot → Checked Text :=
  testedText Identifier.accepts .badIdentifier

def sqlType : Slot → Checked Text :=
  testedText acceptsType .badSqlType

def eachFrom (check : Slot → Checked α) : Nat → List Slot → Checked (List α)
  | _, [] => .valid []
  | n, slot :: rest =>
    List.cons <$> (check slot).under (.index n) <*> eachFrom check (n + 1) rest

def each (check : Slot → Checked α) : Slot → Checked (List α)
  | .several slots => eachFrom check 0 slots
  | .plain (.list items) => eachFrom check 0 (items.map .plain)
  | _ => issue .notList

/-- A node of the right form, or the data of one. -/
def object (node? : Node → Option α) (check : Fields → Checked α) : Slot → Checked α
  | .built n =>
    match node? n with
    | some a => .valid a
    | none => issue .notObject
  | .plain (.map entries) => check (entries.map fun e => (e.1.name, .plain e.2))
  | _ => issue .notObject

end Slot

open Slot

def Predicate.check (fields : Fields) : Checked Predicate :=
  Predicate.mk <$> field fields "column" none identifier
    <*> field fields "placeholder" none identifier

def Node.predicate? : Node → Option Predicate
  | .predicate p => some p
  | _ => none

def filterSlot : Slot → Checked (List Predicate) :=
  Slot.each (Slot.object Node.predicate? Predicate.check)

def checkComment (fields : Fields) : Checked Statement :=
  Statement.comment <$> field fields "text" none (Slot.tree Checked.text)

def checkSelect (fields : Fields) : Checked Statement :=
  Statement.select <$> field fields "table" none identifier
    <*> field fields "where" (some []) filterSlot

def checkInsert (fields : Fields) : Checked Statement :=
  Statement.insert <$> field fields "table" none identifier
    <*> field fields "returning" (some false) (Slot.tree Checked.truth)

def checkDelete (fields : Fields) : Checked Statement :=
  Statement.delete <$> field fields "table" none identifier
    <*> field fields "where" (some []) filterSlot
    <*> field fields "returning" (some false) (Slot.tree Checked.truth)

def ColumnDefinition.check (fields : Fields) : Checked ColumnDefinition :=
  ColumnDefinition.mk <$> field fields "name" none identifier
    <*> field fields "type" none sqlType
    <*> field fields "not_null" none (Slot.tree Checked.truth)

def Node.column? : Node → Option ColumnDefinition
  | .column c => some c
  | _ => none

def TableDefinition.check (fields : Fields) : Checked TableDefinition :=
  TableDefinition.mk <$> field fields "name" none identifier
    <*> field fields "columns" (some [])
      (Slot.each (Slot.object Node.column? ColumnDefinition.check))
    <*> field fields "primary_key" (some []) (Slot.each identifier)

def Typed.check (fields : Fields) : Checked Typed :=
  Typed.mk <$> field fields "name" none identifier <*> field fields "type" none sqlType

def Node.argument? : Node → Option Typed
  | .argument a => some a
  | _ => none

/-- A form of statement, with the names of its fields. -/
structure Shape where
  name : Text
  fields : List Text
  check : Fields → Checked Statement

/-- The forms of statements in the order in which data is tried for them. -/
def shapes : List Shape :=
  [⟨"Comment", ["text"], checkComment⟩, ⟨"Select", ["table", "where"], checkSelect⟩,
    ⟨"Insert", ["table", "returning"], checkInsert⟩,
    ⟨"Delete", ["table", "where", "returning"], checkDelete⟩]

/-- How many fields of a form are given. -/
def Shape.given (s : Shape) (fields : Fields) : Nat :=
  (s.fields.filter fun name => fields.any (·.1 == name)).length

/-- Data is a statement of the form that takes the most of its fields, the first one of several.
If it fits no form, it is at fault for all of them. -/
def checkStatement (fields : Fields) : Checked Statement :=
  let tried := shapes.map fun s => (s, s.check fields)
  let fitting := tried.filterMap fun t => t.2.value?.map (t.1.given fields, ·)
  match fitting with
  | [] => .invalid (tried.flatMap fun t => t.2.issues.map (·.below (.field t.1.name)))
  | first :: rest =>
    .valid (rest.foldl (fun best t => if best.1 < t.1 then t else best) first).2

/-- A statement that was built before, or the data of one. -/
def statementSlot : Slot → Checked Statement
  | .built (.statement s) => .valid s
  | .plain (.map entries) => checkStatement (entries.map fun e => (e.1.name, .plain e.2))
  | _ => .invalid (shapes.map fun s => ⟨[.field s.name], .notObject⟩)

def FunctionDefinition.check (fields : Fields) : Checked FunctionDefinition :=
  FunctionDefinition.mk <$> field fields "name" none identifier
    <*> field fields "args" (some []) (Slot.each (Slot.object Node.argument? Typed.check))
    <*> field fields "returns" (some "VOID") sqlType
    <*> field fields "body" (some []) (Slot.each statementSlot)

/-- Builds a node of a form from its fields. -/
def Node.check (fields : Fields) : Form → Checked Node
  | .comment => Node.statement <$> checkComment fields
  | .predicate => Node.predicate <$> Predicate.check fields
  | .select => Node.statement <$> checkSelect fields
  | .insert => Node.statement <$> checkInsert fields
  | .delete => Node.statement <$> checkDelete fields
  | .column => Node.column <$> ColumnDefinition.check fields
  | .table => Node.table <$> TableDefinition.check fields
  | .argument => Node.argument <$> Typed.check fields
  | .function => Node.function <$> FunctionDefinition.check fields

/-- The text of a node; a statement has several lines. -/
def Node.rendered : Node → List Text ⊕ Text
  | .predicate p => .inr p.text
  | .statement s => .inl s.lines
  | .column c => .inr c.text
  | .table t => .inr t.text
  | .argument a => .inr a.text
  | .function f => .inr f.text

end ApiScaffold.Sql
