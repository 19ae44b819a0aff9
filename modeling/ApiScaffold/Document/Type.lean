import ApiScaffold.DataType
import ApiScaffold.Document.Reference

namespace ApiScaffold.Document

/-- The name of a schema's type. Of several, the one that is not `null` counts. -/
def typeName (schema : Tree) : Option Text :=
  let type := schema.get "type"
  match type.list? with
  | some names =>
    match names.filter fun t => t.str? != some ("null" : Text) with
    | [t] => t.str?
    | _ => none
  | none => type.str?

def primitiveOf (name : Option Text) (schema : Tree) : DataType :=
  match name with
  | some name =>
    if DataType.isPrimitiveName name then .primitive name (schema.get "format").str?
    else .unknown
  | none => .unknown

/-- The type of a schema inside those of the given labels. -/
def dataTypeWithin (around : List Nat) (schema : Tree) : Except Fault DataType :=
  match schema with
  | .recurring label t =>
    if label ∈ around then .error .endless else dataTypeWithin (label :: around) t
  | schema =>
    match reference? schema with
    | some (.str r) => .ok (.reference (referenceName r))
    | _ =>
      match _h : (schema.get "allOf").items with
      | [part] => dataTypeWithin around part
      | _ =>
        let name := typeName schema
        if name = some ("array" : Text) then
          match _h : schema.get? "items" with
          | some items => do .ok (.array (← dataTypeWithin around items))
          | none => .ok (.array .unknown)
        else if name = some ("object" : Text) ∨ schema.has "properties" then
          match _h : (schema.get "properties").map? with
          | some properties => do
            let fields ← properties.attach.mapM fun ⟨e, _⟩ => do
              .ok (← nameOf e.1, ← dataTypeWithin around e.2)
            .ok (.object (Assoc.ofList fields))
          | none => .ok (.object [])
        else .ok (primitiveOf name schema)
termination_by sizeOf schema
decreasing_by
  · simp only [Tree.recurring.sizeOf_spec]; omega
  · exact @Tree.sizeOf_get_items_lt schema part "allOf" (by simp [*])
  · exact Tree.sizeOf_get?_lt ‹_›
  · exact Tree.sizeOf_get_value_lt ‹_› ‹_›

/-- The type of a schema as it stands: a reference is a name and is not followed, and a
composition of one part is that part. A schema that stands in itself has no type. -/
def dataType (schema : Tree) : Except Fault DataType :=
  dataTypeWithin [] schema

end ApiScaffold.Document
