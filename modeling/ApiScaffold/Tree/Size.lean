import ApiScaffold.Tree

namespace ApiScaffold.Tree

theorem find?_mem {key v : Tree} {entries : Tree.Entries}
    (h : Tree.find? key entries = some v) : ∃ k, (k, v) ∈ entries := by
  induction entries with
  | nil => simp [Tree.find?] at h
  | cons e rest ih =>
    obtain ⟨k, w⟩ := e
    simp only [Tree.find?] at h
    split at h
    · obtain rfl := Option.some.inj h
      exact ⟨k, List.mem_cons_self⟩
    · obtain ⟨k', hm⟩ := ih h
      exact ⟨k', List.mem_cons_of_mem _ hm⟩

theorem plain_eq_of_map? {t : Tree} {entries : Tree.Entries} (h : t.map? = some entries) :
    t.plain = .map entries := by
  unfold map? at h
  split at h <;> simp_all

theorem plain_eq_of_list? {t : Tree} {items : List Tree} (h : t.list? = some items) :
    t.plain = .list items := by
  unfold list? at h
  split at h <;> simp_all

theorem plain_eq_of_mem_items {t item : Tree} (h : item ∈ t.items) :
    ∃ items, t.plain = .list items ∧ item ∈ items := by
  unfold items at h
  cases hl : t.list? with
  | none => simp [hl] at h
  | some items => exact ⟨items, plain_eq_of_list? hl, by simpa [hl] using h⟩

theorem plain_eq_self {t : Tree} (h : ∀ label s, t ≠ .recurring label s) : t.plain = t := by
  cases t with
  | recurring label s => exact absurd rfl (h label s)
  | _ => rfl

/-- A value with a label is larger than the value itself. -/
theorem sizeOf_plain_le (t : Tree) : sizeOf t.plain ≤ sizeOf t := by
  induction t using Tree.plain.induct with
  | case1 label t ih =>
    rw [plain, Tree.recurring.sizeOf_spec]
    exact Nat.le_trans ih (Nat.le_add_left _ _)
  | case2 t h => exact Nat.le_of_eq (congrArg sizeOf (plain_eq_self h))

theorem sizeOf_value_lt {t k v : Tree} {entries : Tree.Entries} (h : t.map? = some entries)
    (hm : (k, v) ∈ entries) : sizeOf v < sizeOf t := by
  have hs := List.sizeOf_lt_of_mem hm
  have hp := sizeOf_plain_le t
  rw [plain_eq_of_map? h, Tree.map.sizeOf_spec] at hp
  simp only [Prod.mk.sizeOf_spec] at hs
  omega

theorem sizeOf_items_lt {t item : Tree} (h : item ∈ t.items) : sizeOf item < sizeOf t := by
  obtain ⟨items, hl, hm⟩ := plain_eq_of_mem_items h
  have hs := List.sizeOf_lt_of_mem hm
  have hp := sizeOf_plain_le t
  rw [hl, Tree.list.sizeOf_spec] at hp
  omega

theorem sizeOf_found_lt {t key v : Tree} {entries : Tree.Entries} (h : t.map? = some entries)
    (hf : Tree.find? key entries = some v) : sizeOf v < sizeOf t :=
  let ⟨_, hm⟩ := find?_mem hf
  sizeOf_value_lt h hm

/-- A field is a part of the object it belongs to. -/
theorem sizeOf_get?_lt {t v : Tree} {name : Text} (h : t.get? name = some v) :
    sizeOf v < sizeOf t :=
  let ⟨_, hm, hf⟩ := Option.bind_eq_some_iff.1 h
  sizeOf_found_lt hm hf

theorem get?_of_get_ne_null {t : Tree} {name : Text} (h : t.get name ≠ .null) :
    t.get? name = some (t.get name) := by
  unfold get at h ⊢
  cases hg : t.get? name <;> simp_all

theorem sizeOf_get_items_lt {t item : Tree} {name : Text}
    (h : item ∈ (t.get name).items) : sizeOf item < sizeOf t := by
  have hn : t.get name ≠ .null := fun hn => by simp [hn, items, list?, plain] at h
  exact Nat.lt_trans (sizeOf_items_lt h) (sizeOf_get?_lt (get?_of_get_ne_null hn))

theorem sizeOf_get_value_lt {t k v : Tree} {name : Text} {entries : Tree.Entries}
    (h : (t.get name).map? = some entries) (hm : (k, v) ∈ entries) : sizeOf v < sizeOf t := by
  have hn : t.get name ≠ .null := fun hn => by simp [hn, map?, plain] at h
  exact Nat.lt_trans (sizeOf_value_lt h hm) (sizeOf_get?_lt (get?_of_get_ne_null hn))

end ApiScaffold.Tree
