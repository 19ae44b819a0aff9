import ApiScaffold.Yaml.Node.Reader
import ApiScaffold.Yaml.Object
import ApiScaffold.Yaml.Token.Stream

namespace ApiScaffold.Yaml

namespace Object

/-- The tree of an object, if all its parts have one. -/
def tree? (part : NodeId → Option Tree) : Object → Option Tree
  | .leaf l => some l.value
  | .list items => (items.mapM part).map .list
  | .tuple first second => do some (.tuple [← part first, ← part second])
  | .set members => some (.set members)
  | .map entries => (entries.mapM fun e => (part e.2).map (e.1, ·)).map .map

/-- An object of the same kind without its parts. -/
def cut : Object → Tree
  | .leaf l => l.value
  | .list _ => .list []
  | .tuple _ _ => .tuple []
  | .set _ => .set []
  | .map _ => .map []

end Object

/-- The objects of a document and the trees that were grown of them so far. -/
structure Forest where
  objects : Array (Option Object)
  trees : Array (Option Tree)

namespace Forest

def ofObjects (objects : Array (Option Object)) : Forest :=
  ⟨objects, Array.replicate objects.size none⟩

def object? (f : Forest) (id : NodeId) : Option Object :=
  (f.objects[id]?).join

def tree? (f : Forest) (id : NodeId) : Option Tree :=
  (f.trees[id]?).join

def put (id : NodeId) (t : Tree) (f : Forest) : Forest :=
  { f with trees := f.trees.modify id fun _ => some t }

/-- Grows the tree of each object whose parts have trees already. The others are returned, last
one first. -/
def pass (f : Forest) (ids : List NodeId) : Forest × List NodeId :=
  ids.foldl (fun (f, left) id =>
    match f.object? id with
    | none => (f, left)
    | some o =>
      match o.tree? f.tree? with
      | some t => (f.put id t, left)
      | none => (f, id :: left)) (f, [])

/-- Grows trees until no object gets one any more. Parts mostly stand behind the whole, so the
objects are gone through from the last one on. What is left stands inside itself or holds
something that does. -/
def grow : Nat → Forest → List NodeId → Forest × List NodeId
  | 0, f, ids => (f, ids)
  | fuel + 1, f, ids =>
    let (f, left) := f.pass ids
    if left.isEmpty ∨ left.length = ids.length then (f, left.reverse)
    else grow fuel f left.reverse

/-- Trees of so many levels for the objects that have no end. They are cut off below. -/
def unroll (f : Forest) (endless : List NodeId) : Nat → Forest
  | 0 => endless.foldl (fun next id =>
      match f.object? id with
      | some o => next.put id (.recurring id o.cut)
      | none => next) f
  | levels + 1 =>
    let below := unroll f endless levels
    endless.foldl (fun next id =>
      match (f.object? id).bind (·.tree? below.tree?) with
      | some t => next.put id (.recurring id t)
      | none => next) below

/-- The most keys that a reference in a document can have. -/
def longestPath (f : Forest) : Nat :=
  f.objects.foldl (fun n o =>
    match o with
    | some (.leaf ⟨_, .str s⟩) => max n (s.count (.char '/'))
    | _ => n) 0

/-- So many levels that no use of a document sees where it is cut off. A reference goes down one
level for each of its keys. Below it a description has a fixed number of levels down to its schemas.
Whoever goes down through schemas watches the labels and stops at the first one that comes again. So
each object is met only once as a schema and once as what holds its parts, first for its members and
then for their types; and the arrays around the schema of a body are gone through once each. -/
def levels (f : Forest) (endless : List NodeId) : Nat :=
  24 + 6 * endless.length + f.longestPath

/-- The tree of one object. -/
def whole (objects : Array (Option Object)) (root : NodeId) : Tree :=
  let (f, endless) :=
    (ofObjects objects).grow objects.size (List.range objects.size).reverse
  let f := if endless.isEmpty then f else f.unroll endless (f.levels endless)
  (f.tree? root).getD .null

end Forest

/-- The value of the document that a text spells; null if it spells none. A document may nest as
deep as it likes: the limit that a machine sets to recursion is left out. -/
def load (truths : Truths) (text : Text) : Except Fault Tree := do
  match ← Node.ofTokens truths (.ofText text) with
  | (none, _) => .ok .null
  | (some root, g) => do .ok (Forest.whole (← g.objects root) root)

end ApiScaffold.Yaml
