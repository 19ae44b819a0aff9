import ApiScaffold.Yaml.Node
import ApiScaffold.Yaml.Scalar
import ApiScaffold.Yaml.Token

namespace ApiScaffold.Yaml

/-- What the text before a node decides: the words for truth values and the tag handles. -/
structure Setting where
  truths : Truths
  handles : List (String × String)

/-- The tokens that are left, the anchors so far, and the nodes. A collection has its place from
its first token on and its parts from its last. -/
structure Progress where
  tokens : Tokens
  anchors : List (String × NodeId)
  graph : Graph

abbrev Reading := StateT Progress (Except Fault)

namespace Reading

def peek : Reading Token :=
  fun p => p.tokens.next.map (·, p)

def skip : Reading Unit :=
  modify fun p => { p with tokens := p.tokens.rest }

/-- Passes the given token, which must come next. -/
def expect (t : Token) : Reading Unit := do
  if (← peek) = t then skip else throw .misplaced

/-- A new node, under an anchor if it has one. No two nodes have the same anchor. -/
def add (anchor : Option String) (n : Node) : Reading NodeId :=
  fun p =>
    let id := p.graph.size
    match anchor with
    | none => .ok (id, { p with graph := p.graph.push n })
    | some name =>
      if p.anchors.any (·.1 == name) then .error .alias
      else
        .ok (id, { p with graph := p.graph.push n, anchors := (name, id) :: p.anchors })

def addEmpty : Reading NodeId :=
  add none .empty

def complete (id : NodeId) (content : Content) : Reading NodeId := do
  modify fun p => { p with graph := p.graph.setContent id content }
  pure id

/-- The node of an anchor. -/
def aliased (name : String) : Reading NodeId :=
  fun p =>
    match p.anchors.find? (·.1 == name) with
    | some (_, id) => .ok (id, p)
    | none => .error .alias

end Reading

namespace Node
open Reading

/-- The full name of a tag; a single exclamation mark leaves the type open. -/
def tagName (s : Setting) (handle : Option String) (suffix : String) :
    Except Fault (Option String) :=
  match handle with
  | none => .ok (if suffix = "!" then none else some suffix)
  | some handle =>
    match s.handles.find? (·.1 == handle) with
    | none => .error .tag
    | some (_, start) => .ok (if start ++ suffix = "!" then none else some (start ++ suffix))

/-- The tag and anchor before a node. `tagged` tells that there is a tag, even an open one. -/
structure Properties where
  anchor : Option String
  tag : Option String
  tagged : Bool

def readProperties (s : Setting) : Reading Properties := do
  match ← peek with
  | .anchor name =>
    skip
    match ← peek with
    | .tag handle suffix =>
      skip
      pure ⟨some name, ← tagName s handle suffix, true⟩
    | _ => pure ⟨some name, none, false⟩
  | .tag handle suffix =>
    skip
    match ← peek with
    | .anchor name =>
      skip
      pure ⟨some name, ← tagName s handle suffix, true⟩
    | _ => pure ⟨none, ← tagName s handle suffix, true⟩
  | _ => pure ⟨none, none, false⟩

def collectionTag (standard : Tag) (properties : Properties) : Tag :=
  (properties.tag.map Tag.ofName).getD standard

/-- The tag of a scalar: its own, or by its look if it is plain or its tag is open. -/
def scalarTag (s : Setting) (properties : Properties) (text : Text) (plain : Bool) : Tag :=
  match properties.tag with
  | some name => .ofName name
  | none => if plain || properties.tagged then Scalar.plainTag s.truths text else .str

/-- Whether a block collection may begin, and whether a sequence may begin without indentation. -/
structure Context where
  block : Bool
  indentless : Bool

mutual

/-- Reads a node. `fuel` bounds how many nodes and entries are read one inside the other or one
after the other; four times the number of tokens is enough. -/
def read (s : Setting) (c : Context) : Nat → Reading NodeId
  | 0 => throw .misplaced
  | fuel + 1 => do
    match ← peek with
    | .alias name =>
      skip
      aliased name
    | _ => readContent s c (← readProperties s) fuel

def readContent (s : Setting) (c : Context) (properties : Properties) : Nat → Reading NodeId
  | 0 => throw .misplaced
  | fuel + 1 => do
    let addScalar (text : Text) (plain : Bool) : Reading NodeId :=
      add properties.anchor ⟨scalarTag s properties text plain, .scalar text⟩
    let addSequence : Reading NodeId :=
      add properties.anchor ⟨collectionTag .seq properties, .sequence []⟩
    let addMapping : Reading NodeId :=
      add properties.anchor ⟨collectionTag .map properties, .mapping []⟩
    match ← peek with
    | .scalar text plain =>
      skip
      addScalar text plain
    | .flowSequenceStart =>
      let id ← addSequence
      skip
      complete id (.sequence (← readFlowItems s true fuel))
    | .flowMappingStart =>
      let id ← addMapping
      skip
      complete id (.mapping (← readFlowEntries s true fuel))
    | t =>
      if c.indentless ∧ t = .blockEntry then
        let id ← addSequence
        complete id (.sequence (← readIndentless s fuel))
      else if c.block ∧ t = .blockSequenceStart then
        let id ← addSequence
        skip
        complete id (.sequence (← readBlockItems s fuel))
      else if c.block ∧ t = .blockMappingStart then
        let id ← addMapping
        skip
        complete id (.mapping (← readBlockEntries s fuel))
      else if properties.anchor.isSome ∨ properties.tagged then addScalar "" true
      else throw .misplaced

/-- The items of a block sequence, up to its end. -/
def readBlockItems (s : Setting) : Nat → Reading (List NodeId)
  | 0 => throw .misplaced
  | fuel + 1 => do
    match ← peek with
    | .blockEntry =>
      skip
      let item ← readUnless s ⟨true, false⟩ [.blockEntry, .blockEnd] fuel
      pure (item :: (← readBlockItems s fuel))
    | _ =>
      expect .blockEnd
      pure []

/-- The items of a sequence at the indentation of the mapping around it. -/
def readIndentless (s : Setting) : Nat → Reading (List NodeId)
  | 0 => throw .misplaced
  | fuel + 1 => do
    match ← peek with
    | .blockEntry =>
      skip
      let item ← readUnless s ⟨true, false⟩ [.blockEntry, .key, .value, .blockEnd] fuel
      pure (item :: (← readIndentless s fuel))
    | _ => pure []

/-- The entries of a block mapping, up to its end. -/
def readBlockEntries (s : Setting) : Nat → Reading (List NodePair)
  | 0 => throw .misplaced
  | fuel + 1 => do
    match ← peek with
    | .key =>
      skip
      let key ← readUnless s ⟨true, true⟩ [.key, .value, .blockEnd] fuel
      let value ← readBlockValue s fuel
      pure ((key, value) :: (← readBlockEntries s fuel))
    | _ =>
      expect .blockEnd
      pure []

def readBlockValue (s : Setting) : Nat → Reading NodeId
  | 0 => throw .misplaced
  | fuel + 1 => do
    match ← peek with
    | .value =>
      skip
      readUnless s ⟨true, true⟩ [.key, .value, .blockEnd] fuel
    | _ => addEmpty

/-- The items of a flow sequence, up to its bracket. An item may be a mapping of one entry
without braces. -/
def readFlowItems (s : Setting) (first : Bool) : Nat → Reading (List NodeId)
  | 0 => throw .misplaced
  | fuel + 1 => do
    if (← peek) = .flowSequenceEnd then
      skip
      pure []
    else
      unless first do expect .flowEntry
      match ← peek with
      | .flowSequenceEnd =>
        skip
        pure []
      | .key =>
        let item ← add none ⟨.map, .mapping []⟩
        skip
        let key ← readUnless s ⟨false, false⟩ [.value, .flowEntry, .flowSequenceEnd] fuel
        let value ← readFlowValue s .flowSequenceEnd fuel
        let item ← complete item (.mapping [(key, value)])
        pure (item :: (← readFlowItems s false fuel))
      | _ =>
        let item ← read s ⟨false, false⟩ fuel
        pure (item :: (← readFlowItems s false fuel))

/-- The entries of a flow mapping, up to its brace. -/
def readFlowEntries (s : Setting) (first : Bool) : Nat → Reading (List NodePair)
  | 0 => throw .misplaced
  | fuel + 1 => do
    if (← peek) = .flowMappingEnd then
      skip
      pure []
    else
      unless first do expect .flowEntry
      match ← peek with
      | .flowMappingEnd =>
        skip
        pure []
      | .key =>
        skip
        let key ← readUnless s ⟨false, false⟩ [.value, .flowEntry, .flowMappingEnd] fuel
        let value ← readFlowValue s .flowMappingEnd fuel
        pure ((key, value) :: (← readFlowEntries s false fuel))
      | _ =>
        let key ← read s ⟨false, false⟩ fuel
        let value ← addEmpty
        pure ((key, value) :: (← readFlowEntries s false fuel))

def readFlowValue (s : Setting) (closing : Token) : Nat → Reading NodeId
  | 0 => throw .misplaced
  | fuel + 1 => do
    match ← peek with
    | .value =>
      skip
      readUnless s ⟨false, false⟩ [.flowEntry, closing] fuel
    | _ => addEmpty

/-- Reads a node, or an empty one if one of the given tokens comes next. -/
def readUnless (s : Setting) (c : Context) (absent : List Token) : Nat → Reading NodeId
  | 0 => throw .misplaced
  | fuel + 1 => do
    if (← peek) ∈ absent then addEmpty else read s c fuel

end

def standardHandles : List (String × String) :=
  [("!", "!"), ("!!", Tag.core)]

/-- The directives before a document, with the handles that they declare. A version is given once
at most, and its first number is one; a handle is declared once at most. `fuel` bounds how many
there are. -/
def readDirectives (version : Bool) (handles : List (String × String)) :
    Nat → Reading (List (String × String))
  | 0 => throw .misplaced
  | fuel + 1 => do
    match ← peek with
    | .directive (.version major) =>
      skip
      if version ∨ major ≠ 1 then throw .directive else readDirectives true handles fuel
    | .directive (.tagHandle handle start) =>
      skip
      if handles.any (·.1 == handle) then throw .directive
      else readDirectives version ((handle, start) :: handles) fuel
    | .directive .other =>
      skip
      readDirectives version handles fuel
    | _ => pure (handles ++ standardHandles)

/-- Passes the marks behind a document. -/
def skipEnds : Nat → Reading Unit
  | 0 => throw .misplaced
  | fuel + 1 => do
    if (← peek) = .documentEnd then
      skip
      skipEnds fuel

/-- Whether a document begins behind the marks of the last one, and the handles in it. -/
def readStart (fuel : Nat) : Reading (Option (List (String × String))) := do
  skipEnds fuel
  if (← peek) = .streamEnd then pure none
  else
    let handles ← readDirectives false [] fuel
    expect .documentStart
    pure (some handles)

/-- The end of the one document. -/
def finish (fuel : Nat) : Reading Unit := do
  if (← readStart fuel).isSome then throw .severalDocuments

/-- Reads the one document of a text, if there is one. It may have no start mark, and with one it
may be empty. -/
def readDocument (truths : Truths) (fuel : Nat) : Reading (Option NodeId) := do
  match ← peek with
  | .directive _ | .documentStart | .streamEnd =>
    match ← readStart fuel with
    | none => pure none
    | some handles =>
      let id ←
        match ← peek with
        | .directive _ | .documentStart | .documentEnd | .streamEnd => addEmpty
        | _ => read ⟨truths, handles⟩ ⟨true, false⟩ fuel
      finish fuel
      pure (some id)
  | _ =>
    let id ← read ⟨truths, standardHandles⟩ ⟨true, false⟩ fuel
    finish fuel
    pure (some id)

/-- The nodes of the document that the tokens spell, and which of them is the whole; none if there
is no document. -/
def ofTokens (truths : Truths) (ts : Tokens) : Except Fault (Option NodeId × Graph) := do
  let (id, p) ← (readDocument truths (4 * ts.list.length + 8)).run ⟨ts, [], .empty⟩
  .ok (id, p.graph)

end Node
end ApiScaffold.Yaml
