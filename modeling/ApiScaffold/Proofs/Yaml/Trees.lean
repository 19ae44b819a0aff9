import ApiScaffold.Proofs.Yaml.Objects

namespace ApiScaffold.Yaml

namespace Forest
open Construction

/-- The objects from a place on have their trees. -/
structure Grown (laid : List (Node × Tree)) (c : Construction) (start : Nat) (f : Forest) :
    Prop where
  objects : f.objects = c.objects
  size : f.trees.size = laid.length
  trees : ∀ id, start ≤ id → (c.object? id).isSome = true → f.tree? id = some (treeAt laid id)

variable {laid : List (Node × Tree)} {c : Construction} {f : Forest} {k : Nat}

theorem tree?_put (h : k < f.trees.size) (v : Tree) (id : NodeId) :
    (f.put k v).tree? id = if id = k then some v else f.tree? id := by
  simp only [tree?, put, Array.getElem?_modify]
  by_cases hk : k = id
  · subst hk
    simp [h]
  · simp [hk, Ne.symm hk]

/-- The next object in front gets its tree. -/
theorem Grown.next (h : Grown laid c (k + 1) f) (hc : Complete laid c) (hk : k < laid.length)
    (ids : List NodeId) :
    ∃ f', f.pass (k :: ids) = f'.pass ids ∧ Grown laid c k f' := by
  have hobject : f.object? k = c.object? k := by rw [object?, h.objects, Construction.object?]
  cases ho : c.object? k with
  | none =>
    refine ⟨f, ?_, h.objects, h.size, fun id hid hmade => h.trees id ?_ hmade⟩
    · rw [pass, List.foldl_cons]
      simp only [hobject, ho]
      rfl
    · refine Nat.lt_of_le_of_ne hid fun heq => ?_
      rw [← heq, ho] at hmade
      cases hmade
  | some o =>
    have hdone := hc.finished k o ho
    have htree : o.tree? f.tree? = some (treeAt laid k) :=
      hdone.tree f.tree? fun part hpart =>
        h.trees part (hdone.behind part hpart) (hdone.made part hpart)
    have hlt : k < f.trees.size := by rw [h.size]; exact hk
    refine ⟨f.put k (treeAt laid k), ?_, h.objects, by simpa [put] using h.size, ?_⟩
    · rw [pass, List.foldl_cons]
      simp only [hobject, ho, htree]
      rfl
    · intro id hid hmade
      rw [tree?_put hlt]
      split
      · rename_i heq
        rw [heq]
      · rename_i hne
        exact h.trees id (Nat.lt_of_le_of_ne hid (Ne.symm hne)) hmade

theorem Grown.pass (h : Grown laid c k f) (hc : Complete laid c) (hk : k ≤ laid.length) :
    ∃ f', f.pass (List.range k).reverse = (f', []) ∧ Grown laid c 0 f' := by
  induction k generalizing f with
  | zero => exact ⟨f, rfl, h⟩
  | succ k ih =>
    rw [List.range_succ, List.reverse_append, List.reverse_singleton, List.singleton_append]
    obtain ⟨f₁, hnext, h₁⟩ := h.next hc (by omega) (List.range k).reverse
    obtain ⟨f₂, hpass, h₂⟩ := ih h₁ (by omega)
    exact ⟨f₂, hnext.trans hpass, h₂⟩

/-- One pass that leaves nothing is enough. -/
theorem grow_eq {f' : Forest} {ids : List NodeId} (hpass : f.pass ids = (f', [])) {fuel : Nat}
    (hfuel : 0 < fuel) : f.grow fuel ids = (f', []) := by
  obtain ⟨fuel, rfl⟩ := Nat.exists_eq_add_of_le' hfuel
  rw [grow, hpass]
  rfl

theorem whole_eq (hc : Complete laid c) (hroot : (c.object? 0).isSome = true)
    (hlaid : 0 < laid.length) : whole c.objects 0 = treeAt laid 0 := by
  have hnone : Grown laid c laid.length (ofObjects c.objects) := by
    refine ⟨rfl, by simp [ofObjects, hc.size], fun id hid hmade => ?_⟩
    rw [Construction.object?, Array.getElem?_eq_none (by rw [hc.size]; exact hid)] at hmade
    cases hmade
  obtain ⟨f, hpass, hgrown⟩ := hnone.pass hc (Nat.le_refl _)
  rw [whole, hc.size, grow_eq hpass hlaid]
  simp only [List.isEmpty_nil, if_true, hgrown.trees 0 (Nat.le_refl _) hroot]
  rfl

end Forest

/-- What is loaded of the tokens of a document. -/
theorem load_flow {t : Truths} {text : Text} {d : Flow}
    (htokens : Tokens.ofText text = ⟨d.tokens ++ [.streamEnd], none⟩)
    (hd : d.readable t = true) : load t text = .ok (d.tree t) := by
  obtain ⟨hc, htree, hlaid⟩ := d.coherent_laid hd
  obtain ⟨c, hobjects, hcomplete, hroot⟩ := Graph.objects_extend hc hlaid
  rw [load, htokens, Node.ofTokens_flow]
  show ((Graph.empty.extend (d.laid t 0)).objects 0 >>= _) = _
  rw [hobjects]
  show Except.ok _ = _
  rw [Forest.whole_eq hcomplete hroot hlaid, htree]

end ApiScaffold.Yaml
