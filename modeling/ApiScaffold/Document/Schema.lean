import ApiScaffold.Document.Reference

namespace ApiScaffold.Document

/-- The properties of a schema with the names that it requires. -/
structure Members where
  properties : Assoc Tree
  required : List Text
  deriving Repr

def Members.empty : Members :=
  ⟨[], []⟩

/-- Later properties replace earlier ones in their place. -/
def Members.join (m n : Members) : Members :=
  ⟨m.properties.putAll n.properties, m.required ++ n.required⟩

/-- The members that a schema declares itself. -/
def Members.own (schema : Tree) : Except Fault Members := do
  .ok ⟨← named ((schema.get "properties").map?.getD []),
    ← (schema.get "required").items.mapM nameOf⟩

/-- Joins what the members of a composition expand to, from left to right. -/
def joinAll (known : Members) : List (Traced Members) → Traced Members
  | [] => pure known
  | m :: rest => do
    let m ← m
    joinAll (known.join m) rest

/-- How many references can still be entered, of those in a first schema and in the document. -/
def unentered (d : Document) (first : Tree) (entered : List Text) : Nat :=
  ((first.texts ++ d.root.texts).filter (· ∉ entered)).length

theorem unentered_cons_lt {d : Document} {first : Tree} {entered : List Text} {r : Text}
    (hm : r ∈ first.texts ++ d.root.texts) (hr : r ∉ entered) :
    d.unentered first (r :: entered) < d.unentered first entered :=
  length_filter_lt hm hr List.mem_cons_self (List.subset_cons_self _ _)

mutual

/-- The members of a schema and of everything that it is composed of. `entered` are the references
around it; one of them once more would have no end. `around` are the labels of the schemas that it
stands in, from the last entered reference on. All texts of the schema stand in the `first` one or
in the document. -/
def expand (d : Document) (first : Tree) (entered : List Text) (around : List Nat)
    (schema : Tree) (h : schema.texts ⊆ first.texts ++ d.root.texts) : Traced Members :=
  match _hs : reference? schema with
  | none => expandInline d first entered around schema h
  | some (.str r) =>
    if _hr : r ∈ entered then Traced.fail (.expansionCycle r)
    else do
      match ← (d.follow schema).attach with
      | ⟨none, _⟩ => pure .empty
      | ⟨some target, ht⟩ =>
        expandInline d first (r :: entered) [] target fun _ hm =>
          (List.mem_append.1 (texts_follow_subset ht hm)).elim (h ·) (List.mem_append_right _)
  | some _ => pure .empty
termination_by (d.unentered first entered, sizeOf schema, 1)
decreasing_by
  · exact Prod.Lex.right _ (Prod.Lex.right _ Nat.zero_lt_one)
  · exact Prod.Lex.left _ _ (unentered_cons_lt (h (mem_texts_of_reference? ‹_›)) ‹_›)

/-- The members of a schema that is no reference: those of its parts first, then its own. One that
is a part of itself has none. -/
def expandInline (d : Document) (first : Tree) (entered : List Text) (around : List Nat)
    (schema : Tree) (h : schema.texts ⊆ first.texts ++ d.root.texts) : Traced Members :=
  match schema with
  | .recurring label t =>
    if label ∈ around then Traced.fail .endless
    else expandInline d first entered (label :: around) t (by rwa [Tree.texts] at h)
  | schema => do
    let parts := (schema.get "allOf").items
    let joined ← joinAll .empty (parts.attach.map fun ⟨part, hp⟩ =>
      expand d first entered around part fun _ hm => h (Tree.texts_get_items_subset hp hm))
    pure (joined.join (← Members.own schema))
termination_by (d.unentered first entered, sizeOf schema, 0)
decreasing_by
  · exact Prod.Lex.right _ (Prod.Lex.left _ _ (by simp only [Tree.recurring.sizeOf_spec]; omega))
  · exact Prod.Lex.right _ (Prod.Lex.left _ _ (Tree.sizeOf_get_items_lt ‹_›))

end

/-- Expands a schema with no reference entered. -/
def members (d : Document) (schema : Tree) : Traced Members :=
  d.expand schema [] [] schema (List.subset_append_left _ _)

end ApiScaffold.Document
