import ApiScaffold.Proofs.Yaml.Layout
import ApiScaffold.Yaml.Object
import ApiScaffold.Yaml.Value

namespace ApiScaffold.Yaml

/-- The objects that an object consists of. -/
def Object.parts : Object → List NodeId
  | .leaf _ => []
  | .list items => items
  | .tuple first second => [first, second]
  | .set _ => []
  | .map entries => entries.map (·.2)

theorem mapM_eq_some_map {α β : Type} {f : α → Option β} {g : α → β} {l : List α}
    (h : ∀ a ∈ l, f a = some (g a)) : l.mapM f = some (l.map g) := by
  induction l with
  | nil => rfl
  | cons a l ih =>
    obtain ⟨ha, hl⟩ := List.forall_mem_cons.mp h
    rw [List.mapM_cons, ha, ih hl]
    rfl

namespace Construction

/-- The object of a place has the tree of its node as soon as its parts have theirs, and its parts
stand behind it and are made. -/
structure Finished (laid : List (Node × Tree)) (c : Construction) (id : NodeId) (o : Object) :
    Prop where
  tree : ∀ part : NodeId → Option Tree, (∀ k ∈ o.parts, part k = some (treeAt laid k)) →
    o.tree? part = some (treeAt laid id)
  behind : ∀ k ∈ o.parts, id < k
  made : ∀ k ∈ o.parts, (c.object? k).isSome = true
  origin : ∀ l s, o = .leaf l → l.value = .str s → l.origin = some id

/-- A place where a collection stands. -/
def IsCollection (laid : List (Node × Tree)) (id : NodeId) : Prop :=
  ∃ p, laid[id]? = some p ∧ (emptyObject? p.1.tag).isSome = true

/-- The objects of a layout while they are made: each one is finished or a collection that is still
to be filled, now or on the next level, which holds places from `low` on. -/
structure Building (laid : List (Node × Tree)) (low : Nat) (now : List NodeId) (c : Construction) :
    Prop where
  graph : c.graph = Graph.empty.extend laid
  size : c.objects.size = laid.length
  finished : ∀ id o, c.object? id = some o →
    id ∈ now ∨ id ∈ c.pending ∨ Finished laid c id o
  now : ∀ id ∈ now, IsCollection laid id
  pending : ∀ id ∈ c.pending, low ≤ id ∧ IsCollection laid id

/-- Nothing that is made gets lost. -/
def Grows (c c' : Construction) : Prop :=
  ∀ id, (c.object? id).isSome = true → (c'.object? id).isSome = true

variable {laid : List (Node × Tree)} {low : Nat} {now : List NodeId} {c c' : Construction}
  {id : NodeId} {o : Object}

theorem Finished.grows (h : Finished laid c id o) (hg : Grows c c') : Finished laid c' id o :=
  ⟨h.tree, h.behind, fun k hk => hg k (h.made k hk), h.origin⟩

theorem object?_put (h : id < c.objects.size) (k : NodeId) :
    (c.put id o).object? k = if k = id then some o else c.object? k := by
  simp only [object?, put, Array.getElem?_modify]
  by_cases hk : id = k
  · subst hk
    simp [h]
  · simp [hk, Ne.symm hk]

theorem grows_put (h : id < c.objects.size) : Grows c (c.put id o) := by
  intro k hk
  rw [object?_put h]
  split
  · rfl
  · exact hk

theorem node_extend {p : Node × Tree} (h : laid[id]? = some p) :
    (Graph.empty.extend laid).node id = p.1 := by
  simp [Graph.node, Graph.extend, Graph.empty, h]

theorem tag_extend {p : Node × Tree} (h : laid[id]? = some p) :
    (Graph.empty.extend laid).tag id = p.1.tag := by
  rw [Graph.tag, node_extend h]

/-- A type that has a value as a scalar is no collection. -/
theorem emptyObject?_eq_none {tag : Tag} {text : Text} {v : Tree}
    (h : Scalar.value tag text = .ok v) : emptyObject? tag = none := by
  cases tag <;> first | rfl | cases h

/-- A scalar that has a value becomes a leaf with it, which is told from others by its place if it
is a text. -/
theorem leaf_eq {tag : Tag} {text : Text} {v : Tree}
    (hp : laid[id]? = some (⟨tag, .scalar text⟩, v)) (hv : Scalar.value tag text = .ok v) :
    ∃ origin, leaf (Graph.empty.extend laid) id = .ok ⟨origin, v⟩ ∧
      ∀ s, v = .str s → origin = some id := by
  have htext : (Graph.empty.extend laid).text? id = some text := by
    rw [Graph.text?, Graph.textFrom, node_extend hp]
  refine ⟨if tag = .float ∧ Scalar.isNotNumber text then none else some id, ?_, ?_⟩
  · simp only [leaf, htext, node_extend hp, tag_extend hp, hv]
    rfl
  · rintro s rfl
    rw [if_neg]
    rintro ⟨rfl, _⟩
    simp only [Scalar.value] at hv
    cases hx : Scalar.float text with
    | ok x => rw [hx] at hv; cases hv
    | error f => rw [hx] at hv; cases hv

theorem IsCollection.lt_length (h : IsCollection laid id) : id < laid.length := by
  obtain ⟨p, hp, _⟩ := h
  exact (List.getElem?_eq_some_iff.mp hp).1

/-- The object of one place is put: what was to be filled before still is, and the object is
finished or to be filled itself. -/
theorem Building.put (h : Building laid low now c) (hid : id < laid.length)
    {next queue : List NodeId} (hnext : ∀ k ∈ next, IsCollection laid k)
    (hqueue : ∀ k ∈ queue, low ≤ k ∧ IsCollection laid k) (hnow : ∀ k ∈ now, k = id ∨ k ∈ next)
    (hpending : ∀ k ∈ c.pending, k ∈ queue)
    (ho : id ∈ next ∨ id ∈ queue ∨ Finished laid c id o) :
    Building laid low next { c.put id o with pending := queue } where
  graph := h.graph
  size := by simpa [Construction.put] using h.size
  finished := by
    have hlt : id < c.objects.size := by rw [h.size]; exact hid
    intro k o' hput
    replace hput : (c.put id o).object? k = some o' := hput
    rw [object?_put hlt] at hput
    split at hput
    · rename_i hkid
      subst hkid
      cases hput
      exact ho.imp_right (.imp_right (·.grows (grows_put hlt)))
    · rename_i hkid
      rcases h.finished k o' hput with hk | hk | hk
      · exact .inl ((hnow k hk).resolve_left hkid)
      · exact .inr (.inl (hpending k hk))
      · exact .inr (.inr (hk.grows (grows_put hlt)))
  now := hnext
  pending := hqueue

/-- What is made of a place from `low` on keeps the order of the levels. -/
theorem Building.make (h : Building laid low now c) (hc : Coherent laid) (hid : id < laid.length)
    (hlow : low ≤ id) :
    ∃ c', c.make id = .ok c' ∧ Building laid low now c' ∧ Grows c c' ∧
      (c'.object? id).isSome = true := by
  have hlt : id < c.objects.size := by rw [h.size]; exact hid
  have hmade (o : Object) : ((c.put id o).object? id).isSome = true := by
    rw [object?_put hlt, if_pos rfl, Option.isSome_some]
  cases hobject : c.object? id with
  | some o =>
    exact ⟨c, by rw [Construction.make, hobject], h, fun _ hk => hk, by rw [hobject]; rfl⟩
  | none =>
    obtain ⟨p, hp⟩ : ∃ p, laid[id]? = some p := ⟨_, List.getElem?_eq_getElem hid⟩
    rw [Construction.make, hobject]
    simp only [h.graph, tag_extend hp]
    cases hempty : emptyObject? p.1.tag with
    | some empty =>
      have hcollection : IsCollection laid id := ⟨p, hp, by rw [hempty]; rfl⟩
      exact ⟨_, rfl, h.put hid h.now (List.forall_mem_cons.mpr ⟨⟨hlow, hcollection⟩, h.pending⟩)
        (fun _ => .inr) (fun _ => List.mem_cons_of_mem _) (.inr (.inl List.mem_cons_self)),
        grows_put hlt, hmade empty⟩
    | none =>
      cases hc.sound hp with
      | scalar hv =>
        obtain ⟨origin, hleaf, horigin⟩ := leaf_eq hp hv
        rw [hleaf]
        refine ⟨_, rfl, h.put hid h.now h.pending (fun _ => .inr) (fun _ hk => hk)
          (.inr (.inr ⟨fun _ _ => ?_, ?_, ?_, ?_⟩)), grows_put hlt, hmade _⟩
        · rw [treeAt_eq hp]
          rfl
        · simp [Object.parts]
        · simp [Object.parts]
        · rintro l s ⟨⟩ hs
          exact horigin s hs
      | list _ => cases hempty
      | map _ _ => cases hempty

/-- The leaf of a key: a text that is told from others by its place. -/
def IsKey (laid : List (Node × Tree)) (l : Leaf) : Prop :=
  ∃ id name, laid[id]? = some (⟨.str, .scalar name⟩, .str name) ∧ l = ⟨some id, .str name⟩

theorem Building.key_leaf (h : Building laid low now c) {name : Text}
    (hp : laid[id]? = some (⟨.str, .scalar name⟩, .str name)) (ho : c.object? id = some o) :
    o = .leaf ⟨some id, .str name⟩ := by
  have hscalar : ¬ IsCollection laid id := by
    intro ⟨p, hp', hempty⟩
    rw [hp] at hp'
    cases hp'
    cases hempty
  rcases h.finished id o ho with hnow | hpending | hdone
  · exact absurd (h.now id hnow) hscalar
  · exact absurd (h.pending id hpending).2 hscalar
  · have htree := hdone.tree (fun k => some (treeAt laid k)) (fun _ _ => rfl)
    rw [treeAt_eq hp] at htree
    cases o with
    | leaf l =>
      have hvalue : l.value = .str name := by simpa [Object.tree?] using htree
      have horigin := hdone.origin l name rfl hvalue
      cases l
      rw [← hvalue, ← horigin]
    | list items => simp [Object.tree?] at htree
    | tuple first second => simp [Object.tree?] at htree
    | set members => simp [Object.tree?] at htree
    | map entries => simp [Object.tree?] at htree

/-- Parts that are to be made are made one after the other. -/
theorem Building.makeAll (h : Building laid low now c) (hc : Coherent laid) (ids : List NodeId)
    (hids : ∀ k ∈ ids, low ≤ k ∧ k < laid.length) :
    ∃ c', ids.foldlM Construction.make c = .ok c' ∧ Building laid low now c' ∧ Grows c c' ∧
      ∀ k ∈ ids, (c'.object? k).isSome = true := by
  induction ids generalizing c with
  | nil => exact ⟨c, rfl, h, fun _ hk => hk, by simp⟩
  | cons k ids ih =>
    obtain ⟨hk, hids⟩ := List.forall_mem_cons.mp hids
    obtain ⟨c₁, hmake, h₁, hg₁, hmade₁⟩ := h.make hc hk.2 hk.1
    obtain ⟨c₂, hmakes, h₂, hg₂, hmade₂⟩ := ih h₁ hids
    refine ⟨c₂, ?_, h₂, fun k hk => hg₂ k (hg₁ k hk),
      List.forall_mem_cons.mpr ⟨hg₂ k hmade₁, hmade₂⟩⟩
    rw [List.foldlM_cons, hmake]
    exact hmakes

/-- Keys of one place are one text, so keys are the same just if their texts are. -/
theorem IsKey.same_eq {k l : Leaf} (hk : IsKey laid k) (hl : IsKey laid l) :
    k.same l = k.value.sameKey l.value := by
  obtain ⟨id, name, hp, rfl⟩ := hk
  obtain ⟨id', name', hp', rfl⟩ := hl
  by_cases hid : id = id'
  · subst hid
    rw [hp] at hp'
    cases hp'
    simp [Leaf.same, Tree.sameKey]
  · simp [Leaf.same, hid]

theorem map_putKey {key : Leaf} {value : NodeId} {found : List (Leaf × NodeId)}
    {f : NodeId → Tree} (hkey : IsKey laid key) (hfound : ∀ e ∈ found, IsKey laid e.1) :
    (putKey key value found).map (fun e => (e.1.value, f e.2)) =
      Tree.put key.value (f value) (found.map fun e => (e.1.value, f e.2)) := by
  induction found with
  | nil => rfl
  | cons e found ih =>
    obtain ⟨he, hfound⟩ := List.forall_mem_cons.mp hfound
    rw [putKey, he.same_eq hkey, List.map_cons, Tree.put]
    split
    · rfl
    · rw [List.map_cons, ih hfound]

theorem forall_putKey {P : Leaf → Prop} {Q : NodeId → Prop} {key : Leaf} {value : NodeId}
    {found : List (Leaf × NodeId)} (hkey : P key) (hvalue : Q value)
    (hfound : ∀ e ∈ found, P e.1 ∧ Q e.2) : ∀ e ∈ putKey key value found, P e.1 ∧ Q e.2 := by
  induction found with
  | nil => simpa [putKey] using ⟨hkey, hvalue⟩
  | cons e found ih =>
    obtain ⟨he, hfound⟩ := List.forall_mem_cons.mp hfound
    rw [putKey]
    split
    · exact List.forall_mem_cons.mpr ⟨⟨he.1, hvalue⟩, hfound⟩
    · exact List.forall_mem_cons.mpr ⟨he, ih hfound⟩

/-- Makes the key and the value of one entry and puts them among those found. -/
def enter (state : Construction × List (Leaf × NodeId)) (e : NodePair) :
    Except Fault (Construction × List (Leaf × NodeId)) := do
  let c ← state.1.make e.1
  match c.object? e.1 with
  | some (.leaf k) => .ok (← c.make e.2, putKey k e.2 state.2)
  | _ => .error .construction

theorem makeEntries_eq (c : Construction) (entries : List NodePair) :
    c.makeEntries entries = entries.foldlM enter (c, []) :=
  rfl

/-- An entry of a layout: its parts stand from `low` on and its key is a text. -/
def IsEntry (laid : List (Node × Tree)) (low : Nat) (e : NodePair) : Prop :=
  (low ≤ e.1 ∧ low ≤ e.2 ∧ e.2 < laid.length) ∧
    ∃ name, laid[e.1]? = some (⟨.str, .scalar name⟩, .str name)

theorem Building.enter (h : Building laid low now c) (hc : Coherent laid) {e : NodePair}
    (he : IsEntry laid low e) (found : List (Leaf × NodeId)) :
    ∃ c' key, enter (c, found) e = .ok (c', putKey key e.2 found) ∧ Building laid low now c' ∧
      Grows c c' ∧ IsKey laid key ∧ key.value = treeAt laid e.1 ∧
      (c'.object? e.2).isSome = true := by
  obtain ⟨⟨hkey, hvalue, hlt⟩, name, hp⟩ := he
  obtain ⟨c₁, hmake₁, h₁, hg₁, hmade₁⟩ := h.make hc (List.getElem?_eq_some_iff.mp hp).1 hkey
  obtain ⟨o, ho⟩ := Option.isSome_iff_exists.mp hmade₁
  obtain rfl := h₁.key_leaf hp ho
  obtain ⟨c₂, hmake₂, h₂, hg₂, hmade₂⟩ := h₁.make hc hlt hvalue
  refine ⟨c₂, _, ?_, h₂, fun k hk => hg₂ k (hg₁ k hk), ⟨e.1, name, hp, rfl⟩, ?_, hmade₂⟩
  · simp only [Construction.enter, hmake₁]
    show (match c₁.object? e.1 with | some (.leaf k) => _ | _ => _) = _
    rw [ho]
    simp only [hmake₂]
    rfl
  · rw [treeAt_eq hp]

/-- The entries of a map are made in their order, and those found are its members. What holds of all
values holds of those found. -/
theorem Building.enterAll (h : Building laid low now c) (hc : Coherent laid) {Q : NodeId → Prop}
    (entries : List NodePair) (hentries : ∀ e ∈ entries, IsEntry laid low e ∧ Q e.2)
    {found : List (Leaf × NodeId)}
    (hfound : ∀ e ∈ found, IsKey laid e.1 ∧ Q e.2 ∧ (c.object? e.2).isSome = true) :
    ∃ c' found', entries.foldlM Construction.enter (c, found) = .ok (c', found') ∧
      Building laid low now c' ∧ Grows c c' ∧
      (∀ e ∈ found', IsKey laid e.1 ∧ Q e.2 ∧ (c'.object? e.2).isSome = true) ∧
      found'.map (fun e => (e.1.value, treeAt laid e.2)) =
        (entries.map fun e => (treeAt laid e.1, treeAt laid e.2)).foldl
          (fun es e => Tree.put e.1 e.2 es) (found.map fun e => (e.1.value, treeAt laid e.2)) := by
  induction entries generalizing c found with
  | nil => exact ⟨c, found, rfl, h, fun _ hk => hk, hfound, rfl⟩
  | cons e entries ih =>
    obtain ⟨⟨he, hq⟩, hentries⟩ := List.forall_mem_cons.mp hentries
    obtain ⟨c₁, key, henter, h₁, hg₁, hkey, hvalue, hmade⟩ := h.enter hc he found
    have hfound₁ := forall_putKey (P := IsKey laid)
      (Q := fun k => Q k ∧ (c₁.object? k).isSome = true) hkey ⟨hq, hmade⟩
      fun e he => ⟨(hfound e he).1, (hfound e he).2.1, hg₁ _ (hfound e he).2.2⟩
    obtain ⟨c₂, found₂, henters, h₂, hg₂, hfound₂, htrees⟩ := ih h₁ hentries hfound₁
    refine ⟨c₂, found₂, ?_, h₂, fun k hk => hg₂ k (hg₁ k hk), hfound₂, ?_⟩
    · rw [List.foldlM_cons, henter]
      exact henters
    · rw [htrees, map_putKey hkey fun e he => (hfound e he).1, hvalue]
      rfl

end Construction

namespace Graph

variable {g : Graph} {id : NodeId} {entries : List NodePair}

theorem splitMerge_eq_none (h : ∀ e ∈ entries, g.tag e.1 = .str) :
    g.splitMerge entries = none := by
  induction entries with
  | nil => rfl
  | cons e entries ih =>
    obtain ⟨he, hentries⟩ := List.forall_mem_cons.mp h
    rw [splitMerge, he, if_neg (by simp), ih hentries]
    rfl

theorem plainKeys_eq_self (h : ∀ e ∈ entries, g.tag e.1 = .str) : g.plainKeys entries = g := by
  induction entries with
  | nil => rfl
  | cons e entries ih =>
    obtain ⟨he, hentries⟩ := List.forall_mem_cons.mp h
    rw [plainKeys, List.foldl_cons, he, if_neg (by simp)]
    exact ih hentries

/-- A mapping whose keys are texts merges nothing. -/
theorem flatten_eq_self (h : ∀ e ∈ g.entries id, g.tag e.1 = .str) (fuel : Nat) :
    g.flatten (fuel + 1) id = .ok g := by
  have hcollect (n : Nat) : collect (flatten fuel) id n g [] = .ok (g, []) := by
    cases n with
    | zero => rfl
    | succ n => rw [collect, splitMerge_eq_none h]
  rw [flatten, hcollect]
  show Except.ok _ = _
  rw [plainKeys_eq_self h]
  rfl

end Graph

namespace Construction

variable {laid : List (Node × Tree)} {low : Nat} {now : List NodeId} {c : Construction}
  {id : NodeId}

/-- A place that is filled with a finished object is done with, and nothing that is made gets
lost. -/
theorem Building.filled (h : Building laid low (id :: now) c) {o : Object}
    (ho : Finished laid c id o) :
    Building laid low now (c.put id o) ∧ Grows c (c.put id o) := by
  have hlt : id < laid.length := (h.now id List.mem_cons_self).lt_length
  refine ⟨h.put hlt (fun k hk => h.now k (List.mem_cons_of_mem _ hk)) h.pending
    (fun _ => List.mem_cons.mp) (fun _ hk => hk) (.inr (.inr ho)), grows_put ?_⟩
  rwa [h.size]

theorem finished_list {items : List NodeId}
    (hp : laid[id]? = some (⟨.seq, .sequence items⟩, .list (items.map (treeAt laid))))
    (hitems : ∀ k ∈ items, id < k ∧ (c.object? k).isSome = true) :
    Finished laid c id (.list items) := by
  refine ⟨fun part hpart => ?_, fun k hk => (hitems k hk).1, fun k hk => (hitems k hk).2, ?_⟩
  · rw [Object.tree?, mapM_eq_some_map (l := items) hpart, treeAt_eq hp]
    rfl
  · rintro l s ⟨⟩

theorem finished_map {entries : List NodePair} {found : List (Leaf × NodeId)}
    (hp : laid[id]? = some (⟨.map, .mapping entries⟩,
      Tree.ofEntries (entries.map fun e => (treeAt laid e.1, treeAt laid e.2))))
    (hfound : ∀ e ∈ found, id < e.2 ∧ (c.object? e.2).isSome = true)
    (htrees : found.map (fun e => (e.1.value, treeAt laid e.2)) =
      (entries.map fun e => (treeAt laid e.1, treeAt laid e.2)).foldl
        (fun es e => Tree.put e.1 e.2 es) []) :
    Finished laid c id (.map (found.map fun e => (e.1.value, e.2))) := by
  have hparts : ∀ k ∈ (Object.map (found.map fun e => (e.1.value, e.2))).parts,
      id < k ∧ (c.object? k).isSome = true := by
    intro k hk
    simp only [Object.parts, List.map_map, List.mem_map, Function.comp_apply] at hk
    obtain ⟨e, he, rfl⟩ := hk
    exact hfound e he
  refine ⟨fun part hpart => ?_, fun k hk => (hparts k hk).1, fun k hk => (hparts k hk).2, ?_⟩
  · have hmembers := mapM_eq_some_map
      (f := fun e : Tree × NodeId => (part e.2).map (e.1, ·))
      (g := fun e => (e.1, treeAt laid e.2)) (l := found.map fun e => (e.1.value, e.2))
      fun e he => by rw [hpart e.2 (List.mem_map_of_mem he)]; rfl
    rw [Object.tree?, hmembers, List.map_map, treeAt_eq hp, Tree.ofEntries]
    exact congrArg (fun members => some (Tree.map members)) htrees
  · rintro l s ⟨⟩

/-- A mapping of a layout is flat already, so its entries are made in a graph that is as before. -/
theorem Building.fill_map (h : Building laid low now c) {entries : List NodePair} {v : Tree}
    (hp : laid[id]? = some (⟨.map, .mapping entries⟩, v))
    (keys : ∀ e ∈ entries, ∃ key, laid[e.1]? = some (⟨.str, .scalar key⟩, .str key))
    (merges : Nat) : fill merges c id = (do
      let (c, found) ← entries.foldlM Construction.enter (c, [])
      .ok (c.put id (.map (found.map fun e => (e.1.value, e.2))))) := by
  have htag : c.graph.tag id = .map := by rw [h.graph, tag_extend hp]
  have hnode : c.graph.node id = ⟨.map, .mapping entries⟩ := by rw [h.graph, node_extend hp]
  have hown : c.graph.entries id = entries := by rw [Graph.entries, hnode]
  have hflat : c.graph.flatten (merges + 1) id = .ok c.graph := by
    refine Graph.flatten_eq_self (fun e he => ?_) merges
    rw [hown] at he
    obtain ⟨name, hname⟩ := keys e he
    rw [h.graph, tag_extend hname]
  rw [Construction.fill, htag, hnode]
  show (c.graph.flatten (merges + 1) id >>= _) = _
  rw [hflat]
  show (c.makeEntries (c.graph.entries id) >>= _) = _
  rw [hown, makeEntries_eq]

/-- A collection before the next level is filled, and its parts are made. -/
theorem Building.fill (h : Building laid low (id :: now) c) (hc : Coherent laid)
    (hlow : low ≤ id + 1) (merges : Nat) :
    ∃ c', fill merges c id = .ok c' ∧ Building laid low now c' ∧ Grows c c' := by
  obtain ⟨p, hp, hempty⟩ := h.now id List.mem_cons_self
  cases hc.sound hp with
  | scalar hv => rw [emptyObject?_eq_none hv] at hempty; cases hempty
  | @list items behind =>
    obtain ⟨c₁, hmake, h₁, hg₁, hmade⟩ := h.makeAll hc items fun k hk =>
      ⟨Nat.le_trans hlow (behind k hk).1, (behind k hk).2⟩
    obtain ⟨h₂, hg₂⟩ := h₁.filled (finished_list hp fun k hk => ⟨(behind k hk).1, hmade k hk⟩)
    refine ⟨_, ?_, h₂, fun k hk => hg₂ k (hg₁ k hk)⟩
    rw [Construction.fill, h.graph, tag_extend hp, node_extend hp]
    show (items.foldlM Construction.make c >>= _) = _
    rw [hmake]
    rfl
  | @map entries behind keys =>
    have hentries : ∀ e ∈ entries, IsEntry laid low e ∧ id < e.2 := fun e he =>
      ⟨⟨⟨Nat.le_trans hlow (behind e he).1, Nat.le_trans hlow (behind e he).2.1,
        (behind e he).2.2⟩, keys e he⟩, (behind e he).2.1⟩
    obtain ⟨c₁, found, henter, h₁, hg₁, hfound, htrees⟩ :=
      h.enterAll hc (Q := (id < ·)) entries hentries (List.forall_mem_nil _)
    obtain ⟨h₂, hg₂⟩ := h₁.filled (finished_map hp (fun e he => (hfound e he).2) htrees)
    refine ⟨_, ?_, h₂, fun k hk => hg₂ k (hg₁ k hk)⟩
    rw [h.fill_map hp keys, henter]
    rfl

/-- A level is filled from its last place on, and what it queues stands behind its first place. -/
theorem Building.fillAll (h : Building laid low now c) (hc : Coherent laid)
    (hlow : ∀ id ∈ now, low ≤ id + 1) (merges : Nat) :
    ∃ c', now.foldlM (Construction.fill merges) c = .ok c' ∧ Building laid low [] c' ∧
      Grows c c' := by
  induction now generalizing c with
  | nil => exact ⟨c, rfl, h, fun _ hk => hk⟩
  | cons id now ih =>
    obtain ⟨hid, hlow⟩ := List.forall_mem_cons.mp hlow
    obtain ⟨c₁, hfill, h₁, hg₁⟩ := h.fill hc hid merges
    obtain ⟨c₂, hfills, h₂, hg₂⟩ := ih h₁ hlow
    refine ⟨c₂, ?_, h₂, fun k hk => hg₂ k (hg₁ k hk)⟩
    rw [List.foldlM_cons, hfill]
    exact hfills

/-- The objects of a layout when all of them are made: each is finished, and so is the first. -/
structure Complete (laid : List (Node × Tree)) (c : Construction) : Prop where
  size : c.objects.size = laid.length
  finished : ∀ id o, c.object? id = some o → Finished laid c id o

theorem Building.complete (h : Building laid low [] c) (hp : c.pending = []) :
    Complete laid c := by
  refine ⟨h.size, fun id o ho => ?_⟩
  have hid := h.finished id o ho
  rw [hp] at hid
  simpa using hid

/-- A level holds places from its number on, so there are no more levels than places. -/
theorem Building.fillLevels (h : Building laid low [] c) (hc : Coherent laid) (merges : Nat)
    {fuel : Nat} (hf : laid.length < low + fuel) :
    ∃ c', fillLevels merges fuel c = .ok c' ∧ Grows c c' ∧ Complete laid c' := by
  induction fuel generalizing low c with
  | zero =>
    refine ⟨c, rfl, fun _ hk => hk, h.complete (List.eq_nil_iff_forall_not_mem.mpr ?_)⟩
    intro id hid
    obtain ⟨hlow, hcollection⟩ := h.pending id hid
    exact absurd (Nat.lt_of_le_of_lt hlow hcollection.lt_length) (by omega)
  | succ fuel ih =>
    cases hlevel : c.pending with
    | nil => exact ⟨c, by rw [Construction.fillLevels, hlevel], fun _ hk => hk, h.complete hlevel⟩
    | cons first level =>
      have hnext : Building laid (low + 1) c.pending.reverse { c with pending := [] } := by
        refine ⟨h.graph, h.size, fun id o ho => ?_,
          fun id hid => (h.pending id (List.mem_reverse.mp hid)).2, by simp⟩
        rcases h.finished id o ho with hnow | hpending | hdone
        · cases hnow
        · exact .inl (List.mem_reverse.mpr hpending)
        · exact .inr (.inr (hdone.grows fun _ hk => hk))
      obtain ⟨c₁, hfill, h₁, hg₁⟩ := hnext.fillAll hc
        (fun id hid => Nat.succ_le_succ (h.pending id (List.mem_reverse.mp hid)).1) merges
      obtain ⟨c₂, hfills, hg₂, hcomplete⟩ := ih h₁ (by omega)
      refine ⟨c₂, ?_, fun k hk => hg₂ k (hg₁ k hk), hcomplete⟩
      rw [Construction.fillLevels, hlevel]
      show (((first :: level).reverse.foldlM (Construction.fill merges) _) >>= _) = _
      rw [← hlevel, hfill]
      exact hfills

theorem building_ofGraph (laid : List (Node × Tree)) :
    Building laid 0 [] (ofGraph (Graph.empty.extend laid)) := by
  have hsize := Graph.size_extend Graph.empty laid
  refine ⟨rfl, ?_, fun id o ho => ?_, by simp, by simp [ofGraph]⟩
  · simpa [ofGraph, Graph.size, Graph.empty] using hsize
  · simp only [object?, ofGraph, Array.getElem?_replicate] at ho
    split at ho <;> cases ho

end Construction

/-- The objects of a coherent layout are made without a fault. -/
theorem Graph.objects_extend {laid : List (Node × Tree)} (hc : Coherent laid)
    (hroot : 0 < laid.length) :
    ∃ c : Construction, (Graph.empty.extend laid).objects 0 = .ok c.objects ∧ c.Complete laid ∧
      (c.object? 0).isSome = true := by
  have hsize : (Graph.empty.extend laid).size = laid.length := by
    rw [size_extend]
    exact Nat.zero_add _
  obtain ⟨c₁, hmake, h₁, -, hmade⟩ :=
    (Construction.building_ofGraph laid).make hc hroot (Nat.zero_le _)
  obtain ⟨c₂, hfill, hg, hcomplete⟩ :=
    h₁.fillLevels hc (Graph.empty.extend laid).mergeCount
      (show laid.length < 0 + (laid.length + 1) by omega)
  refine ⟨c₂, ?_, hcomplete, hg 0 hmade⟩
  rw [Graph.objects, hmake]
  show (Construction.fillLevels _ _ c₁ >>= _) = _
  rw [hsize, hfill]
  rfl

end ApiScaffold.Yaml
