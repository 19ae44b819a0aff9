import ApiScaffold.Tree.Size

namespace ApiScaffold

mutual

/-- The texts that stand in a value, keys apart. -/
def Tree.texts : Tree → List Text
  | .str s => [s]
  | .list items | .tuple items | .set items => itemTexts items
  | .map entries => entryTexts entries
  | .recurring _ t => t.texts
  | _ => []

def itemTexts : List Tree → List Text
  | [] => []
  | item :: rest => item.texts ++ itemTexts rest

def entryTexts : List (Tree × Tree) → List Text
  | [] => []
  | (_, value) :: rest => value.texts ++ entryTexts rest

end

namespace Tree

theorem texts_plain (t : Tree) : t.plain.texts = t.texts := by
  induction t using Tree.plain.induct with
  | case1 label t ih => rw [plain, ih, texts]
  | case2 t h => rw [plain_eq_self h]

theorem texts_subset_itemTexts {t : Tree} {items : List Tree} (h : t ∈ items) :
    t.texts ⊆ itemTexts items := by
  induction items with
  | nil => cases h
  | cons item rest ih =>
    rw [itemTexts]
    rcases List.mem_cons.1 h with rfl | h
    · exact List.subset_append_left _ _
    · exact List.subset_append_of_subset_right _ (ih h)

theorem texts_subset_entryTexts {k v : Tree} {entries : Tree.Entries} (h : (k, v) ∈ entries) :
    v.texts ⊆ entryTexts entries := by
  induction entries with
  | nil => cases h
  | cons e rest ih =>
    rw [entryTexts]
    rcases List.mem_cons.1 h with rfl | h
    · exact List.subset_append_left _ _
    · exact List.subset_append_of_subset_right _ (ih h)

/-- The texts of a field are texts of the object it belongs to. -/
theorem texts_get?_subset {t v : Tree} {name : Text} (h : t.get? name = some v) :
    v.texts ⊆ t.texts := by
  obtain ⟨entries, hm, hf⟩ := Option.bind_eq_some_iff.1 h
  obtain ⟨_, he⟩ := find?_mem hf
  rw [← texts_plain t, plain_eq_of_map? hm, texts]
  exact texts_subset_entryTexts he

theorem texts_items_subset {t item : Tree} (h : item ∈ t.items) : item.texts ⊆ t.texts := by
  obtain ⟨items, hl, hm⟩ := plain_eq_of_mem_items h
  rw [← texts_plain t, hl, texts]
  exact texts_subset_itemTexts hm

theorem texts_get_items_subset {t item : Tree} {name : Text}
    (h : item ∈ (t.get name).items) : item.texts ⊆ t.texts := by
  have hn : t.get name ≠ .null := fun hn => by simp [hn, items, list?, plain] at h
  exact List.Subset.trans (texts_items_subset h) (texts_get?_subset (get?_of_get_ne_null hn))

end Tree
end ApiScaffold
