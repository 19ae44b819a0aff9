import ApiScaffold.Proofs.Yaml.Flow

namespace ApiScaffold.Yaml

/-- The tree of the node at a place. -/
def treeAt (laid : List (Node × Tree)) (id : NodeId) : Tree :=
  (laid[id]?.map Prod.snd).getD .null

/-- A node stands for its tree, given the trees of its parts. -/
inductive Sound (laid : List (Node × Tree)) (id : NodeId) : Node × Tree → Prop where
  | scalar {tag : Tag} {text : Text} {v : Tree} (value : Scalar.value tag text = .ok v) :
    Sound laid id (⟨tag, .scalar text⟩, v)
  | list {items : List NodeId} (behind : ∀ k ∈ items, id < k ∧ k < laid.length) :
    Sound laid id (⟨.seq, .sequence items⟩, .list (items.map (treeAt laid)))
  | map {entries : List NodePair} (behind : ∀ e ∈ entries, id < e.1 ∧ id < e.2 ∧ e.2 < laid.length)
      (keys : ∀ e ∈ entries, ∃ key, laid[e.1]? = some (⟨.str, .scalar key⟩, .str key)) :
    Sound laid id (⟨.map, .mapping entries⟩,
      Tree.ofEntries (entries.map fun e => (treeAt laid e.1, treeAt laid e.2)))

/-- Every node between two places stands for its tree. -/
def SoundOn (laid : List (Node × Tree)) (start stop : Nat) : Prop :=
  ∀ id p, start ≤ id → id < stop → laid[id]? = some p → Sound laid id p

def Coherent (laid : List (Node × Tree)) : Prop :=
  SoundOn laid 0 laid.length

variable {laid : List (Node × Tree)}

theorem Coherent.sound (h : Coherent laid) {id : NodeId} {p : Node × Tree}
    (hp : laid[id]? = some p) : Sound laid id p :=
  h id p (Nat.zero_le _) (List.getElem?_eq_some_iff.mp hp).1 hp

theorem treeAt_eq {id : NodeId} {p : Node × Tree} (h : laid[id]? = some p) :
    treeAt laid id = p.2 := by
  simp [treeAt, h]

theorem SoundOn.append {a b c : Nat} (h : SoundOn laid a b) (h' : SoundOn laid b c) :
    SoundOn laid a c := by
  intro id p ha hc hp
  by_cases hb : id < b
  · exact h id p ha hb hp
  · exact h' id p (by omega) hc hp

theorem SoundOn.single {id : NodeId} {p : Node × Tree} (hp : laid[id]? = some p)
    (h : Sound laid id p) : SoundOn laid id (id + 1) := by
  intro k q hk hk' hq
  obtain rfl : k = id := by omega
  rw [hp] at hq
  cases hq
  exact h

section
variable {α : Type} {xs ys zs : List α} {a : α} {n : Nat}

theorem getElem?_of_cons_prefix_drop (h : a :: ys <+: xs.drop n) :
    xs[n]? = some a ∧ ys <+: xs.drop (n + 1) := by
  obtain ⟨more, h⟩ := h
  have hhead := congrArg List.head? h
  have htail := congrArg List.tail h
  simp only [List.cons_append, List.head?_cons, List.head?_drop] at hhead
  simp only [List.cons_append, List.tail_cons, List.tail_drop] at htail
  exact ⟨hhead.symm, more, htail⟩

theorem prefix_drop_of_append (h : ys ++ zs <+: xs.drop n) :
    ys <+: xs.drop n ∧ zs <+: xs.drop (n + ys.length) := by
  refine ⟨(List.prefix_append ys zs).trans h, ?_⟩
  obtain ⟨more, h⟩ := h
  rw [← List.drop_drop, ← h, List.append_assoc, List.drop_left]
  exact List.prefix_append zs more

end

namespace Flow

variable (t : Truths)

mutual

/-- Whether each scalar has a value. -/
def readable : Flow → Bool
  | scalar text plain => (Scalar.value (tag t text plain) text).isOk
  | list items => itemsReadable items
  | map members => membersReadable members

def itemsReadable : List Flow → Bool
  | [] => true
  | d :: rest => d.readable && itemsReadable rest

def membersReadable : List (Text × Flow) → Bool
  | [] => true
  | (_, d) :: rest => d.readable && membersReadable rest

end

variable {t}

theorem value_eq_leaf {text : Text} {plain : Bool} (h : (scalar text plain).readable t = true) :
    Scalar.value (tag t text plain) text = .ok (leaf t text plain) := by
  unfold readable at h
  unfold leaf
  cases hv : Scalar.value (tag t text plain) text with
  | ok v => rfl
  | error f => rw [hv] at h; cases h

mutual

/-- A document that is laid out at a place of a layout stands there. -/
theorem stands : ∀ (d : Flow) (n : NodeId), d.readable t = true → d.laid t n <+: laid.drop n →
    treeAt laid n = d.tree t ∧ n < laid.length ∧ SoundOn laid n (n + d.size)
  | scalar text plain, n, hr, h => by
    have hp := (getElem?_of_cons_prefix_drop h).1
    exact ⟨treeAt_eq hp, (List.getElem?_eq_some_iff.mp hp).1,
      .single hp (.scalar (value_eq_leaf hr))⟩
  | list items, n, hr, h => by
    obtain ⟨hp, hitems⟩ := getElem?_of_cons_prefix_drop h
    obtain ⟨htrees, hids, hsound⟩ := itemsStand items (n + 1) hr hitems
    refine ⟨treeAt_eq hp, (List.getElem?_eq_some_iff.mp hp).1,
      (SoundOn.single hp ?_).append (Nat.add_right_comm n 1 _ ▸ hsound)⟩
    rw [← htrees]
    exact .list hids
  | map members, n, hr, h => by
    obtain ⟨hp, hmembers⟩ := getElem?_of_cons_prefix_drop h
    obtain ⟨hentries, hids, hkeys, hsound⟩ := membersStand members (n + 1) hr hmembers
    refine ⟨treeAt_eq hp, (List.getElem?_eq_some_iff.mp hp).1,
      (SoundOn.single hp ?_).append (Nat.add_right_comm n 1 _ ▸ hsound)⟩
    rw [← hentries]
    exact .map hids hkeys

theorem itemsStand : ∀ (items : List Flow) (n : NodeId), itemsReadable t items = true →
    itemsLaid t n items <+: laid.drop n →
    (itemIds n items).map (treeAt laid) = itemsTrees t items ∧
      (∀ k ∈ itemIds n items, n ≤ k ∧ k < laid.length) ∧ SoundOn laid n (n + itemsSize items)
  | [], n, hr, h => by
    refine ⟨rfl, by simp [itemIds], ?_⟩
    intro id p hid hid'
    simp only [itemsSize] at hid'
    omega
  | d :: rest, n, hr, h => by
    simp only [itemsReadable, Bool.and_eq_true] at hr
    obtain ⟨hd, hrest⟩ := prefix_drop_of_append h
    rw [length_laid] at hrest
    obtain ⟨htree, hplace, hsound⟩ := stands d n hr.1 hd
    obtain ⟨htrees, hids, hsounds⟩ := itemsStand rest (n + d.size) hr.2 hrest
    refine ⟨by simp [itemIds, itemsTrees, htree, htrees], ?_, ?_⟩
    · intro k hk
      rcases List.mem_cons.mp hk with rfl | hk
      · exact ⟨Nat.le_refl _, hplace⟩
      · exact (hids k hk).imp_left (Nat.le_trans (Nat.le_add_right _ _))
    · rw [itemsSize, ← Nat.add_assoc]
      exact hsound.append hsounds

theorem membersStand : ∀ (members : List (Text × Flow)) (n : NodeId),
    membersReadable t members = true → membersLaid t n members <+: laid.drop n →
    (memberIds n members).map (fun e => (treeAt laid e.1, treeAt laid e.2)) =
        membersEntries t members ∧
      (∀ e ∈ memberIds n members, n ≤ e.1 ∧ n ≤ e.2 ∧ e.2 < laid.length) ∧
      (∀ e ∈ memberIds n members, ∃ key, laid[e.1]? = some (⟨.str, .scalar key⟩, .str key)) ∧
      SoundOn laid n (n + membersSize members)
  | [], n, hr, h => by
    refine ⟨rfl, by simp [memberIds], by simp [memberIds], ?_⟩
    intro id p hid hid'
    simp only [membersSize] at hid'
    omega
  | (key, d) :: rest, n, hr, h => by
    simp only [membersReadable, Bool.and_eq_true] at hr
    obtain ⟨hkey, h⟩ := getElem?_of_cons_prefix_drop h
    obtain ⟨hd, hrest⟩ := prefix_drop_of_append h
    rw [length_laid] at hrest
    obtain ⟨htree, hplace, hsound⟩ := stands d (n + 1) hr.1 hd
    obtain ⟨hentries, hids, hkeys, hsounds⟩ := membersStand rest (n + 1 + d.size) hr.2 hrest
    refine ⟨by simp [memberIds, membersEntries, treeAt_eq hkey, htree, hentries], ?_, ?_, ?_⟩
    · intro e he
      rcases List.mem_cons.mp he with rfl | he
      · exact ⟨Nat.le_refl _, Nat.le_succ _, hplace⟩
      · have hn : n ≤ n + 1 + d.size := Nat.le_trans (Nat.le_succ n) (Nat.le_add_right _ _)
        exact (hids e he).imp (Nat.le_trans hn) (.imp_left (Nat.le_trans hn))
    · intro e he
      rcases List.mem_cons.mp he with rfl | he
      · exact ⟨key, hkey⟩
      · exact hkeys e he
    · have hscalar := SoundOn.single hkey (.scalar rfl)
      rw [membersSize, Nat.add_comm d.size, ← Nat.add_assoc, ← Nat.add_assoc]
      exact (hscalar.append hsound).append hsounds

end

/-- Every node of a document stands for its tree, and the first one for the whole. -/
theorem coherent_laid (d : Flow) (h : d.readable t = true) :
    Coherent (d.laid t 0) ∧ treeAt (d.laid t 0) 0 = d.tree t ∧ 0 < (d.laid t 0).length := by
  obtain ⟨htree, hplace, hsound⟩ := d.stands 0 h List.prefix_rfl
  rw [Coherent, length_laid]
  rw [Nat.zero_add] at hsound
  rw [length_laid] at hplace
  exact ⟨hsound, htree, hplace⟩

end Flow
end ApiScaffold.Yaml
