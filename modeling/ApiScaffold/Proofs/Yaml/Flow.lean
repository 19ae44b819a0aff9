import ApiScaffold.Yaml.Node.Reader
import ApiScaffold.Yaml.Scalar

namespace ApiScaffold.Yaml

inductive Flow where
  | scalar (text : Text) (plain : Bool)
  | list (items : List Flow)
  | map (members : List (Text × Flow))

namespace Flow

variable (t : Truths)

/-- The type of a scalar: by its look if it is plain, and a text if it is quoted. -/
def tag (text : Text) (plain : Bool) : Tag :=
  if plain then Scalar.plainTag t text else .str

/-- The value of a scalar that has one. -/
def leaf (text : Text) (plain : Bool) : Tree :=
  match Scalar.value (tag t text plain) text with
  | .ok v => v
  | .error _ => .null

mutual

def tokens : Flow → List Token
  | scalar text plain => [.scalar text plain]
  | list items => .flowSequenceStart :: itemsTokens true items
  | map members => .flowMappingStart :: membersTokens true members

/-- The items of a list and its bracket. -/
def itemsTokens (first : Bool) : List Flow → List Token
  | [] => [.flowSequenceEnd]
  | d :: rest => (if first then [] else [.flowEntry]) ++ (d.tokens ++ itemsTokens false rest)

/-- The members of a map and its brace. -/
def membersTokens (first : Bool) : List (Text × Flow) → List Token
  | [] => [.flowMappingEnd]
  | (key, d) :: rest =>
    (if first then [] else [.flowEntry]) ++
      (.key :: .scalar key false :: .value :: (d.tokens ++ membersTokens false rest))

end

mutual

/-- How many nodes a document has. -/
def size : Flow → Nat
  | scalar _ _ => 1
  | list items => itemsSize items + 1
  | map members => membersSize members + 1

def itemsSize : List Flow → Nat
  | [] => 0
  | d :: rest => d.size + itemsSize rest

def membersSize : List (Text × Flow) → Nat
  | [] => 0
  | (_, d) :: rest => d.size + 1 + membersSize rest

end

/-- The places of items, of which the first is at a given one. -/
def itemIds (n : NodeId) : List Flow → List NodeId
  | [] => []
  | d :: rest => n :: itemIds (n + d.size) rest

def memberIds (n : NodeId) : List (Text × Flow) → List NodePair
  | [] => []
  | (_, d) :: rest => (n, n + 1) :: memberIds (n + 1 + d.size) rest

mutual

def tree : Flow → Tree
  | scalar text plain => leaf t text plain
  | list items => .list (itemsTrees items)
  | map members => Tree.ofEntries (membersEntries members)

def itemsTrees : List Flow → List Tree
  | [] => []
  | d :: rest => d.tree :: itemsTrees rest

def membersEntries : List (Text × Flow) → Tree.Entries
  | [] => []
  | (key, d) :: rest => (.str key, d.tree) :: membersEntries rest

end

mutual

/-- The nodes of a document whose first place is given, each with the tree that it stands for. -/
def laid (n : NodeId) : Flow → List (Node × Tree)
  | scalar text plain => [(⟨tag t text plain, .scalar text⟩, leaf t text plain)]
  | list items =>
    (⟨.seq, .sequence (itemIds (n + 1) items)⟩, .list (itemsTrees t items)) ::
      itemsLaid (n + 1) items
  | map members =>
    (⟨.map, .mapping (memberIds (n + 1) members)⟩, Tree.ofEntries (membersEntries t members)) ::
      membersLaid (n + 1) members

def itemsLaid (n : NodeId) : List Flow → List (Node × Tree)
  | [] => []
  | d :: rest => d.laid n ++ itemsLaid (n + d.size) rest

def membersLaid (n : NodeId) : List (Text × Flow) → List (Node × Tree)
  | [] => []
  | (key, d) :: rest =>
    (⟨.str, .scalar key⟩, .str key) ::
      (d.laid (n + 1) ++ membersLaid (n + 1 + d.size) rest)

end

mutual

theorem length_laid (n : NodeId) : ∀ d : Flow, (d.laid t n).length = d.size
  | scalar _ _ => rfl
  | list items => congrArg (· + 1) (length_itemsLaid (n + 1) items)
  | map members => congrArg (· + 1) (length_membersLaid (n + 1) members)

theorem length_itemsLaid (n : NodeId) :
    ∀ items : List Flow, (itemsLaid t n items).length = itemsSize items
  | [] => rfl
  | d :: rest => by
    rw [itemsLaid, itemsSize, List.length_append, length_laid n d, length_itemsLaid _ rest]

theorem length_membersLaid (n : NodeId) :
    ∀ members : List (Text × Flow), (membersLaid t n members).length = membersSize members
  | [] => rfl
  | (key, d) :: rest => by
    rw [membersLaid, membersSize, List.length_cons, List.length_append, length_laid _ d,
      length_membersLaid _ rest]
    omega

end

theorem length_tokens_pos (d : Flow) : 0 < d.tokens.length := by
  cases d <;> simp [tokens]

theorem length_itemsTokens_pos (first : Bool) (items : List Flow) :
    0 < (itemsTokens first items).length := by
  cases items with
  | nil => simp [itemsTokens]
  | cons d rest =>
    have := d.length_tokens_pos
    simp only [itemsTokens, List.length_append]
    omega

end Flow

namespace Graph

/-- The graph with the nodes of a layout behind its own. -/
def extend (g : Graph) (laid : List (Node × Tree)) : Graph :=
  ⟨g.nodes ++ (laid.map Prod.fst).toArray⟩

theorem size_extend (g : Graph) (laid : List (Node × Tree)) :
    (g.extend laid).size = g.size + laid.length := by
  simp [size, extend]

theorem size_push (g : Graph) (n : Node) : (g.push n).size = g.size + 1 := by
  simp [size, push]

theorem extend_nil (g : Graph) : g.extend [] = g := by
  simp [extend]

theorem extend_append (g : Graph) (first more : List (Node × Tree)) :
    g.extend (first ++ more) = (g.extend first).extend more := by
  simp [extend]

theorem push_extend (g : Graph) (n : Node) (v : Tree) (laid : List (Node × Tree)) :
    (g.push n).extend laid = g.extend ((n, v) :: laid) := by
  simp [extend, push]

/-- A collection is completed behind its parts and keeps its place. -/
theorem setContent_extend (g : Graph) (tag : Tag) (first last : Content) (v : Tree)
    (laid : List (Node × Tree)) :
    ((g.push ⟨tag, first⟩).extend laid).setContent g.size last =
      g.extend ((⟨tag, last⟩, v) :: laid) := by
  simp only [extend, push, setContent, size, mk.injEq]
  apply Array.toList_inj.mp
  have hplace : g.nodes.size < (g.nodes.toList ++ ⟨tag, first⟩ :: laid.map Prod.fst).length := by
    simp
  simp only [Array.toList_modify, Array.toList_append, Array.toList_push, List.append_assoc,
    List.singleton_append, List.map_cons]
  rw [List.modify_eq_take_cons_drop hplace]
  simp [List.drop_append]

end Graph

namespace Node
open Reading

section
variable {s : Setting} {c : Context} {fuel : Nat} {fault : Option Fault}
  {anchors : List (String × NodeId)} {g : Graph} {ts : List Token}

theorem read_scalar {text : Text} {plain : Bool} :
    read s c (fuel + 2) ⟨⟨.scalar text plain :: ts, fault⟩, anchors, g⟩ =
      .ok (g.size, ⟨⟨ts, fault⟩, anchors,
        g.push ⟨Flow.tag s.truths text plain, .scalar text⟩⟩) := by
  cases plain <;> rfl

theorem read_sequence :
    read s c (fuel + 2) ⟨⟨.flowSequenceStart :: ts, fault⟩, anchors, g⟩ =
      (readFlowItems s true fuel >>= fun items => complete g.size (.sequence items))
        ⟨⟨ts, fault⟩, anchors, g.push ⟨.seq, .sequence []⟩⟩ := by
  rfl

theorem read_mapping :
    read s c (fuel + 2) ⟨⟨.flowMappingStart :: ts, fault⟩, anchors, g⟩ =
      (readFlowEntries s true fuel >>= fun entries => complete g.size (.mapping entries))
        ⟨⟨ts, fault⟩, anchors, g.push ⟨.map, .mapping []⟩⟩ := by
  rfl

theorem readFlowItems_end {first : Bool} :
    readFlowItems s first (fuel + 1) ⟨⟨.flowSequenceEnd :: ts, fault⟩, anchors, g⟩ =
      .ok ([], ⟨⟨ts, fault⟩, anchors, g⟩) := by
  rfl

theorem readFlowItems_item {first : Bool} (d : Flow) :
    readFlowItems s first (fuel + 1)
        ⟨⟨(if first then [] else [.flowEntry]) ++ (d.tokens ++ ts), fault⟩, anchors, g⟩ =
      (read s ⟨false, false⟩ fuel >>= fun item =>
          (item :: ·) <$> readFlowItems s false fuel)
        ⟨⟨d.tokens ++ ts, fault⟩, anchors, g⟩ := by
  cases first <;> cases d <;> rfl

theorem readFlowEntries_end {first : Bool} :
    readFlowEntries s first (fuel + 1) ⟨⟨.flowMappingEnd :: ts, fault⟩, anchors, g⟩ =
      .ok ([], ⟨⟨ts, fault⟩, anchors, g⟩) := by
  rfl

theorem readFlowEntries_member {first : Bool} (key : Text) (d : Flow) :
    readFlowEntries s first (fuel + 4)
        ⟨⟨(if first then [] else [.flowEntry]) ++
          (.key :: .scalar key false :: .value :: (d.tokens ++ ts)), fault⟩, anchors, g⟩ =
      (read s ⟨false, false⟩ (fuel + 1) >>= fun value =>
          ((g.size, value) :: ·) <$> readFlowEntries s false (fuel + 3))
        ⟨⟨d.tokens ++ ts, fault⟩, anchors, g.push ⟨.str, .scalar key⟩⟩ := by
  cases first <;> cases d <;> rfl

end

theorem bind_eq_of_ok {α β : Type} {p q : Progress} {x : Reading α} {f : α → Reading β} {a : α}
    (h : x p = .ok (a, q)) : (x >>= f) p = f a q := by
  show Except.bind (x p) (fun r => f r.1 r.2) = _
  rw [h]
  rfl

theorem map_eq_of_ok {α β : Type} {p q : Progress} {x : Reading α} {f : α → β} {a : α}
    (h : x p = .ok (a, q)) : (f <$> x) p = .ok (f a, q) := by
  show Except.map (fun r => (f r.1, r.2)) (x p) = _
  rw [h]
  rfl

variable {s : Setting} {fault : Option Fault} {anchors : List (String × NodeId)} {ts : List Token}

mutual

/-- The tokens of a document are read as its nodes, of which the first one is the whole. -/
theorem read_flow : ∀ (d : Flow) (c : Context) (fuel : Nat) (g : Graph) (ts : List Token),
    4 * d.tokens.length ≤ fuel →
    read s c fuel ⟨⟨d.tokens ++ ts, fault⟩, anchors, g⟩ =
      .ok (g.size, ⟨⟨ts, fault⟩, anchors, g.extend (d.laid s.truths g.size)⟩)
  | .scalar text plain, c, fuel, g, ts, hf => by
    simp only [Flow.tokens, List.length_cons] at hf
    obtain ⟨fuel, rfl⟩ := Nat.exists_eq_add_of_le' (show 2 ≤ fuel by omega)
    exact read_scalar
  | .list items, c, fuel, g, ts, hf => by
    simp only [Flow.tokens, List.length_cons] at hf
    obtain ⟨fuel, rfl⟩ := Nat.exists_eq_add_of_le' (show 2 ≤ fuel by omega)
    have hitems := readFlowItems_flow items true fuel (g.push ⟨.seq, .sequence []⟩) ts (by omega)
    rw [Flow.tokens, List.cons_append, read_sequence, bind_eq_of_ok hitems, Graph.size_push]
    exact congrArg (fun g' => Except.ok (g.size, (⟨⟨ts, fault⟩, anchors, g'⟩ : Progress)))
      (g.setContent_extend _ _ _ _ _)
  | .map members, c, fuel, g, ts, hf => by
    simp only [Flow.tokens, List.length_cons] at hf
    obtain ⟨fuel, rfl⟩ := Nat.exists_eq_add_of_le' (show 2 ≤ fuel by omega)
    have hentries := readFlowEntries_flow members true fuel (g.push ⟨.map, .mapping []⟩) ts
      (by omega)
    rw [Flow.tokens, List.cons_append, read_mapping, bind_eq_of_ok hentries, Graph.size_push]
    exact congrArg (fun g' => Except.ok (g.size, (⟨⟨ts, fault⟩, anchors, g'⟩ : Progress)))
      (g.setContent_extend _ _ _ _ _)

theorem readFlowItems_flow : ∀ (items : List Flow) (first : Bool) (fuel : Nat) (g : Graph)
    (ts : List Token), 4 * (Flow.itemsTokens first items).length ≤ fuel →
    readFlowItems s first fuel ⟨⟨Flow.itemsTokens first items ++ ts, fault⟩, anchors, g⟩ =
      .ok (Flow.itemIds g.size items, ⟨⟨ts, fault⟩, anchors,
        g.extend (Flow.itemsLaid s.truths g.size items)⟩)
  | [], first, fuel, g, ts, hf => by
    simp only [Flow.itemsTokens, List.length_cons] at hf
    obtain ⟨fuel, rfl⟩ := Nat.exists_eq_add_of_le' (show 1 ≤ fuel by omega)
    rw [Flow.itemsTokens, List.singleton_append, readFlowItems_end, Flow.itemsLaid,
      Graph.extend_nil, Flow.itemIds]
  | d :: rest, first, fuel, g, ts, hf => by
    simp only [Flow.itemsTokens, List.length_append] at hf
    have hd := d.length_tokens_pos
    have hr := Flow.length_itemsTokens_pos false rest
    obtain ⟨fuel, rfl⟩ := Nat.exists_eq_add_of_le' (show 1 ≤ fuel by omega)
    have hitem := read_flow d ⟨false, false⟩ fuel g (Flow.itemsTokens false rest ++ ts) (by omega)
    have hrest := readFlowItems_flow rest false fuel (g.extend (d.laid s.truths g.size)) ts
      (by omega)
    rw [Flow.itemsTokens, List.append_assoc, List.append_assoc, readFlowItems_item,
      bind_eq_of_ok hitem, map_eq_of_ok hrest, Graph.size_extend, Flow.length_laid,
      Flow.itemIds, Flow.itemsLaid, Graph.extend_append]

theorem readFlowEntries_flow : ∀ (members : List (Text × Flow)) (first : Bool) (fuel : Nat)
    (g : Graph) (ts : List Token), 4 * (Flow.membersTokens first members).length ≤ fuel →
    readFlowEntries s first fuel ⟨⟨Flow.membersTokens first members ++ ts, fault⟩, anchors, g⟩ =
      .ok (Flow.memberIds g.size members, ⟨⟨ts, fault⟩, anchors,
        g.extend (Flow.membersLaid s.truths g.size members)⟩)
  | [], first, fuel, g, ts, hf => by
    simp only [Flow.membersTokens, List.length_cons] at hf
    obtain ⟨fuel, rfl⟩ := Nat.exists_eq_add_of_le' (show 1 ≤ fuel by omega)
    rw [Flow.membersTokens, List.singleton_append, readFlowEntries_end, Flow.membersLaid,
      Graph.extend_nil, Flow.memberIds]
  | (key, d) :: rest, first, fuel, g, ts, hf => by
    simp only [Flow.membersTokens, List.length_append, List.length_cons] at hf
    obtain ⟨fuel, rfl⟩ := Nat.exists_eq_add_of_le' (show 4 ≤ fuel by omega)
    have hvalue := read_flow d ⟨false, false⟩ (fuel + 1) (g.push ⟨.str, .scalar key⟩)
      (Flow.membersTokens false rest ++ ts) (by omega)
    have hrest := readFlowEntries_flow rest false (fuel + 3)
      ((g.push ⟨.str, .scalar key⟩).extend (d.laid s.truths (g.size + 1))) ts (by omega)
    rw [Graph.size_push] at hvalue
    rw [Flow.membersTokens, List.append_assoc, List.cons_append, List.cons_append, List.cons_append,
      List.append_assoc, readFlowEntries_member, bind_eq_of_ok hvalue, map_eq_of_ok hrest,
      Graph.size_extend, Graph.size_push, Flow.length_laid, Flow.memberIds, Flow.membersLaid,
      ← Graph.extend_append, Graph.push_extend]

end

theorem readDocument_flow {t : Truths} {fuel : Nat} (d : Flow) (p : Progress)
    (h : p.tokens.list = d.tokens ++ ts) :
    readDocument t fuel p =
      (read ⟨t, standardHandles⟩ ⟨true, false⟩ fuel >>= fun id =>
        finish fuel >>= fun _ => pure (some id)) p := by
  obtain ⟨⟨list, fault⟩, anchors, g⟩ := p
  obtain rfl : list = _ := h
  cases d <;> rfl

/-- What the tokens of a whole document are read as. -/
theorem ofTokens_flow (t : Truths) (d : Flow) :
    ofTokens t ⟨d.tokens ++ [.streamEnd], none⟩ =
      .ok (some 0, Graph.empty.extend (d.laid t 0)) := by
  have hread : read ⟨t, standardHandles⟩ ⟨true, false⟩
      (4 * (d.tokens ++ [Token.streamEnd]).length + 8)
      ⟨⟨d.tokens ++ [.streamEnd], none⟩, [], .empty⟩ = _ :=
    read_flow d _ _ _ _ (by simp only [List.length_append]; omega)
  show ((readDocument t _).run ⟨⟨d.tokens ++ [.streamEnd], none⟩, [], .empty⟩ >>= _) = _
  rw [StateT.run, readDocument_flow d _ rfl, bind_eq_of_ok hread]
  rfl

end Node
end ApiScaffold.Yaml
