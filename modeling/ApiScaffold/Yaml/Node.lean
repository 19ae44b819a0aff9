import ApiScaffold.Text.Basic
import ApiScaffold.Yaml.Tag

namespace ApiScaffold.Yaml

/-- The place of a node among the nodes of its document. -/
abbrev NodeId := Nat

/-- The key and the value of an entry. -/
abbrev NodePair := NodeId × NodeId

inductive Content where
  | scalar (text : Text)
  | sequence (items : List NodeId)
  | mapping (entries : List NodePair)
  deriving DecidableEq, Repr

/-- A typed node. Its parts are named by their places, so that what an alias names is one node
wherever it stands, even inside itself. -/
structure Node where
  tag : Tag
  content : Content
  deriving DecidableEq, Repr

/-- The node where nothing is written. -/
def Node.empty : Node :=
  ⟨.null, .scalar ""⟩

/-- The nodes of a document by their places. -/
structure Graph where
  nodes : Array Node
  deriving Repr

namespace Graph

def empty : Graph :=
  ⟨#[]⟩

def size (g : Graph) : Nat :=
  g.nodes.size

def node (g : Graph) (id : NodeId) : Node :=
  g.nodes[id]?.getD .empty

def tag (g : Graph) (id : NodeId) : Tag :=
  (g.node id).tag

/-- The entries of a mapping; other nodes have none. -/
def entries (g : Graph) (id : NodeId) : List NodePair :=
  match (g.node id).content with
  | .mapping entries => entries
  | _ => []

def push (n : Node) (g : Graph) : Graph :=
  ⟨g.nodes.push n⟩

def setTag (id : NodeId) (tag : Tag) (g : Graph) : Graph :=
  ⟨g.nodes.modify id fun n => { n with tag }⟩

def setContent (id : NodeId) (content : Content) (g : Graph) : Graph :=
  ⟨g.nodes.modify id fun n => { n with content }⟩

/-- The text of a scalar. A mapping stands for the text under its value key, if it has one.
`fuel` bounds how many mappings are gone through. -/
def textFrom (g : Graph) : Nat → NodeId → Option Text
  | 0, _ => none
  | fuel + 1, id =>
    match (g.node id).content with
    | .scalar text => some text
    | .sequence _ => none
    | .mapping entries =>
      (entries.find? fun e => g.tag e.1 = .value).bind fun e => textFrom g fuel e.2

def text? (g : Graph) (id : NodeId) : Option Text :=
  g.textFrom (g.size + 1) id

end Graph
end ApiScaffold.Yaml
