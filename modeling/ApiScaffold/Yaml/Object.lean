import ApiScaffold.Yaml.Node.Merge
import ApiScaffold.Yaml.Scalar

namespace ApiScaffold.Yaml

/-- A value that is no collection, and the node that it was made of. All that is written as the
word for no number is one value, so it is of no node. -/
structure Leaf where
  origin : Option NodeId
  value : Tree
  deriving Repr

namespace Leaf

/-- Two keys of one node are the same, even if their value differs from itself. -/
def same (k l : Leaf) : Bool :=
  k.origin == l.origin || k.value.sameKey l.value

end Leaf

/-- What a node stands for. The parts of a collection are objects, by their places. The objects of
nodes have the places of the nodes; those that stand in no node of their own come behind. -/
inductive Object where
  | leaf (l : Leaf)
  | list (items : List NodeId)
  | tuple (first second : NodeId)
  | set (members : List Tree)
  | map (entries : List (Tree × NodeId))
  deriving Repr

/-- The objects that were made so far, and the collections among them that are still empty, last
one first. Merging changes the nodes as it goes. -/
structure Construction where
  graph : Graph
  objects : Array (Option Object)
  pending : List NodeId
  deriving Repr

namespace Construction

def ofGraph (g : Graph) : Construction :=
  ⟨g, Array.replicate g.size none, []⟩

def object? (c : Construction) (id : NodeId) : Option Object :=
  (c.objects[id]?).join

def put (id : NodeId) (o : Object) (c : Construction) : Construction :=
  { c with objects := c.objects.modify id fun _ => some o }

/-- What a node of the type is before its parts are made; none if it is no collection. -/
def emptyObject? : Tag → Option Object
  | .seq | .orderedMap | .pairs => some (.list [])
  | .map => some (.map [])
  | .set => some (.set [])
  | _ => none

/-- The value of a node that is no collection. -/
def leaf (g : Graph) (id : NodeId) : Except Fault Leaf :=
  match g.text? id with
  | none => .error .construction
  | some text =>
    match (g.node id).content, g.tag id with
    | .mapping _, .timestamp => .error (.value .timestampNotScalar)
    | _, tag => do
      let isWord := tag = .float ∧ Scalar.isNotNumber text
      .ok ⟨if isWord then none else some id, ← Scalar.value tag text⟩

/-- Makes the object of a node, once. A collection is made empty. -/
def make (c : Construction) (id : NodeId) : Except Fault Construction :=
  match c.object? id with
  | some _ => .ok c
  | none =>
    match emptyObject? (c.graph.tag id) with
    | some empty => .ok { c.put id empty with pending := id :: c.pending }
    | none => do .ok (c.put id (.leaf (← leaf c.graph id)))

/-- A repeated key keeps its first place and takes the new value. -/
def putKey (key : Leaf) (value : NodeId) : List (Leaf × NodeId) → List (Leaf × NodeId)
  | [] => [(key, value)]
  | (k, v) :: rest => if k.same key then (k, value) :: rest else (k, v) :: putKey key value rest

/-- Makes the keys and values of a mapping. Collections cannot be keys. -/
def makeEntries (c : Construction) (entries : List NodePair) :
    Except Fault (Construction × List (Leaf × NodeId)) :=
  entries.foldlM (fun (c, found) (key, value) => do
    let c ← c.make key
    match c.object? key with
    | some (.leaf k) => .ok (← c.make value, putKey k value found)
    | _ => .error .construction) (c, [])

/-- Makes a tuple of an item, which is a mapping of one entry. -/
def makeTuple (c : Construction) (item : NodeId) : Except Fault (Construction × NodeId) :=
  match (c.graph.node item).content with
  | .mapping [(key, value)] => do
    let c ← (← c.make key).make value
    .ok ({ c with objects := c.objects.push (some (.tuple key value)) }, c.objects.size)
  | _ => .error .construction

/-- Fills a collection with its parts, which are made in order. `merges` are the merge keys of all
mappings. -/
def fill (merges : Nat) (c : Construction) (id : NodeId) : Except Fault Construction := do
  match c.graph.tag id, (c.graph.node id).content with
  | .seq, .sequence items =>
    let c ← items.foldlM make c
    .ok (c.put id (.list items))
  | .orderedMap, .sequence items | .pairs, .sequence items =>
    let (c, tuples) ← items.foldlM (fun (c, tuples) item => do
      let (c, tuple) ← c.makeTuple item
      .ok (c, tuple :: tuples)) (c, [])
    .ok (c.put id (.list tuples.reverse))
  | .map, .mapping _ =>
    let graph ← c.graph.flatten (merges + 1) id
    let (c, entries) ← { c with graph }.makeEntries (graph.entries id)
    .ok (c.put id (.map (entries.map fun e => (e.1.value, e.2))))
  | .set, .mapping _ =>
    let graph ← c.graph.flatten (merges + 1) id
    let (c, entries) ← { c with graph }.makeEntries (graph.entries id)
    .ok (c.put id (.set (entries.map (·.1.value))))
  | _, _ => .error .construction

/-- Fills collections level by level, so the fault that is found is the outermost one and the
first on its level. Every level fills a collection, so there are no more than nodes. -/
def fillLevels (merges : Nat) : Nat → Construction → Except Fault Construction
  | 0, c => .ok c
  | fuel + 1, c =>
    match c.pending with
    | [] => .ok c
    | level => do
      fillLevels merges fuel (← level.reverse.foldlM (fill merges) { c with pending := [] })

end Construction

/-- The objects of a document, of which one node is the whole. -/
def Graph.objects (g : Graph) (root : NodeId) : Except Fault (Array (Option Object)) := do
  let c ← (Construction.ofGraph g).make root
  .ok (← c.fillLevels g.mergeCount (g.size + 1)).objects

end ApiScaffold.Yaml
