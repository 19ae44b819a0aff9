import ApiScaffold.Checked
import ApiScaffold.Spec.Depth
import ApiScaffold.Tree.Shown
import ApiScaffold.Tree.Size

namespace ApiScaffold

namespace DataType
open Checked

/-- The kind may be left out where it is already known, but it must not contradict. -/
def checkKind (kind : Kind) (entries : Tree.Entries) : Checked Unit :=
  field entries "kind" (some ()) (word fun s => if s = kind.name then some () else none)

def checkPrimitive (entries : Tree.Entries) : Checked DataType :=
  (fun _ name format => .primitive name format) <$> checkKind .primitive entries
    <*> field entries "name" (some "unknown") text
    <*> field entries "format" (some none) optionalText

def checkReference (entries : Tree.Entries) : Checked DataType :=
  (fun _ name => .reference name) <$> checkKind .reference entries
    <*> field entries "name" none text

/-- Collects the checked properties of an object under their names. -/
def collectProperties : List (Tree × Checked DataType) → Checked (List (Text × DataType))
  | [] => .valid []
  | (key, t) :: rest =>
    match key with
    | .str name =>
      (fun t rest => (name, t) :: rest) <$> t.under (.field name) <*> collectProperties rest
    | key =>
      (fun _ rest => rest) <$> (issue .notText : Checked Unit).under (.field key.name)
        <*> collectProperties rest

/-- The form that data of a type says it has. -/
def kindOf (entries : Tree.Entries) : Except Fault Kind :=
  match Tree.find? (.str "kind") entries with
  | none => .error .noKind
  | some (.str s) =>
    match Kind.ofName? s with
    | some kind => .ok kind
    | none => .error .unknownKind
  | some _ => .error .unknownKind

/-- A type says by its `kind` which form it has, and the form checks the other fields. Nothing is
looked at behind the last level that is allowed. -/
def check (place : Surrounding) (above : Nat) : Tree → Checked DataType
  | .map entries =>
    match kindOf entries with
    | .error fault => issue fault
    | .ok kind =>
      match below? place above kind with
      | none => (issue .tooDeep).under (.field kind.name)
      | some levels =>
        match kind with
        | .primitive => (checkPrimitive entries).under (.field kind.name)
        | .reference => (checkReference entries).under (.field kind.name)
        | .array =>
          match _h : Tree.find? (.str "items") entries with
          | none => ((issue .missing).under (.field "items")).under (.field kind.name)
          | some items =>
            (((check (place.inside kind) levels items).map DataType.array).under
              (.field "items")).under (.field kind.name)
        | .object =>
          match _h : Tree.find? (.str "properties") entries with
          | none => valid (.object [])
          | some (.map properties) =>
            (((collectProperties (properties.attach.map fun ⟨e, _⟩ =>
              (e.1, check (place.inside kind) levels e.2))).map DataType.object).under
                (.field "properties")).under (.field kind.name)
          | some _ => ((issue .notMap).under (.field "properties")).under (.field kind.name)
  | _ => issue .notTyped
termination_by t => sizeOf t
decreasing_by
  · exact Tree.sizeOf_found_lt rfl ‹_›
  · exact Nat.lt_trans (Tree.sizeOf_value_lt rfl ‹_›) (Tree.sizeOf_found_lt rfl ‹_›)

/-- The type of a column or parameter. -/
def checkDeclared : Tree → Checked DataType :=
  check .declared 0

/-- The levels around the parts of a type that stands on its own. -/
def partLevels (kind : Kind) : Nat :=
  Surrounding.alone.levels kind

def checkArray (entries : Tree.Entries) : Checked DataType :=
  (fun _ items => .array items) <$> checkKind .array entries
    <*> field entries "items" none (check (Surrounding.alone.inside .array) (partLevels .array))

def checkProperties : Tree → Checked (List (Text × DataType))
  | .map properties =>
    collectProperties (properties.map fun e =>
      (e.1, check (Surrounding.alone.inside .object) (partLevels .object) e.2))
  | _ => issue .notMap

def checkObject (entries : Tree.Entries) : Checked DataType :=
  (fun _ properties => .object properties) <$> checkKind .object entries
    <*> field entries "properties" (some []) checkProperties

end DataType

open Checked

def Column.check (entries : Tree.Entries) : Checked Column :=
  Column.mk <$> field entries "name" none text <*> field entries "type" none DataType.checkDeclared
    <*> field entries "nullable" none truth <*> field entries "primary_key" (some false) truth

def Table.check (entries : Tree.Entries) : Checked Table :=
  Table.mk <$> field entries "name" none text
    <*> field entries "columns" (some []) (list (object Column.check))

def Parameter.check (entries : Tree.Entries) : Checked Parameter :=
  Parameter.mk <$> field entries "name" none text
    <*> field entries "location" none (word Location.ofName?)
    <*> field entries "required" none truth
    <*> field entries "type" (some .string) DataType.checkDeclared

def Endpoint.check (entries : Tree.Entries) : Checked Endpoint :=
  Endpoint.mk <$> field entries "name" none text
    <*> field entries "method" none (word Method.ofName?)
    <*> field entries "path" none text
    <*> field entries "parameters" (some []) (list (object Parameter.check))
    <*> field entries "request_body_type" (some none) optionalText
    <*> field entries "response_body_type" (some none) optionalText
    <*> field entries "summary" (some "") text

def Spec.check (entries : Tree.Entries) : Checked Spec :=
  Spec.mk <$> field entries "tables" (some []) (list (object Table.check))
    <*> field entries "functions" (some []) (list (object Endpoint.check))

end ApiScaffold
