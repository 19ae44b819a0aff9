import ApiScaffold.Yaml.Fault
import ApiScaffold.Yaml.Node

namespace ApiScaffold.Yaml.Graph

/-- The value of the first merge key among entries, and the other entries. -/
def splitMerge (g : Graph) : List NodePair → Option (NodeId × List NodePair)
  | [] => none
  | (key, value) :: rest =>
    if g.tag key = .merge then some (value, rest)
    else (splitMerge g rest).map fun (merged, others) => (merged, (key, value) :: others)

/-- Collects what the merge keys of a mapping bring, in their order. Each merged mapping is
flattened itself first, and each merge key is taken away before, so a mapping that is merged into
itself brings the entries that it has by then. Of several mappings under one key the first has the
last word. -/
def collect (flatten : Graph → NodeId → Except Fault Graph) (id : NodeId) :
    Nat → Graph → List NodePair → Except Fault (Graph × List NodePair)
  | 0, g, found => .ok (g, found)
  | fuel + 1, g, found =>
    match g.splitMerge (g.entries id) with
    | none => .ok (g, found)
    | some (merged, others) =>
      let g := g.setContent id (.mapping others)
      match (g.node merged).content with
      | .mapping _ => do
        let g ← flatten g merged
        collect flatten id fuel g (found ++ g.entries merged)
      | .sequence items => do
        let (g, parts) ← items.foldlM part (g, [])
        collect flatten id fuel g (found ++ parts.flatten)
      | .scalar _ => .error .construction
where
  /-- The last part comes first. -/
  part (state : Graph × List (List NodePair)) (item : NodeId) :
      Except Fault (Graph × List (List NodePair)) := do
    match (state.1.node item).content with
    | .mapping _ => do
      let g ← flatten state.1 item
      .ok (g, g.entries item :: state.2)
    | _ => .error .construction

/-- A value key is a plain text as the key of a mapping. -/
def plainKeys (entries : List NodePair) (g : Graph) : Graph :=
  entries.foldl (fun g e => if g.tag e.1 = .value then g.setTag e.1 .str else g) g

/-- Puts the entries that a mapping merges before its own. `fuel` bounds how deep merged mappings
merge others; one more than the merge keys of all mappings is enough. -/
def flatten : Nat → Graph → NodeId → Except Fault Graph
  | 0, g, _ => .ok g
  | fuel + 1, g, id => do
    let (g, found) ← collect (flatten fuel) id (g.entries id).length g []
    let own := g.entries id
    let g := g.plainKeys own
    .ok (if found.isEmpty then g else g.setContent id (.mapping (found ++ own)))

/-- How many entries of all mappings have a merge key. -/
def mergeCount (g : Graph) : Nat :=
  g.nodes.foldl (fun n node =>
    match node.content with
    | .mapping entries => n + (entries.filter fun e => g.tag e.1 = .merge).length
    | _ => n) 0

end ApiScaffold.Yaml.Graph
