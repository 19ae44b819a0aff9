import ApiScaffold.Document.Reference
import Mathlib.Data.List.Basic

namespace ApiScaffold

namespace Tree
variable {s t u v key : Tree} {name : Text} {entries : Entries}

/-- A value, or what stands in it. Documents are read through lists and maps; tuples and sets are
never looked into, and keys are no parts. -/
inductive Within : Tree → Tree → Prop
  | self (t : Tree) : Within t t
  | item {s item : Tree} {items : List Tree} (hm : item ∈ items) (h : Within s item) :
      Within s (.list items)
  | value {s key v : Tree} {entries : Entries} (hm : (key, v) ∈ entries) (h : Within s v) :
      Within s (.map entries)
  | label {s t : Tree} {n : Nat} (h : Within s t) : Within s (.recurring n t)

theorem Within.trans (hst : Within s t) (htu : Within t u) : Within s u := by
  induction htu with
  | self => exact hst
  | item hm _ ih => exact .item hm ih
  | value hm _ ih => exact .value hm ih
  | label _ ih => exact .label ih

theorem within_of_plain (h : Within s t.plain) : Within s t := by
  induction t using Tree.plain.induct with
  | case1 n t ih =>
    rw [plain] at h
    exact .label (ih h)
  | case2 t ht => rwa [plain_eq_self ht] at h

theorem within_of_mem_entries (hm : t.map? = some entries) (h : (key, v) ∈ entries) :
    Within v t := by
  apply within_of_plain
  rw [plain_eq_of_map? hm]
  exact .value h (.self v)

theorem within_of_mem_items (h : s ∈ t.items) : Within s t := by
  obtain ⟨items, hl, hm⟩ := plain_eq_of_mem_items h
  apply within_of_plain
  rw [hl]
  exact .item hm (.self s)

theorem within_of_get? (h : t.get? name = some v) : Within v t := by
  obtain ⟨entries, hm, hf⟩ := Option.bind_eq_some_iff.mp h
  obtain ⟨key, he⟩ := find?_mem hf
  exact within_of_mem_entries hm he

theorem within_of_mem_get_items (h : s ∈ (t.get name).items) : Within s t := by
  have hne : t.get name ≠ .null := by
    intro hnull
    rw [hnull] at h
    cases h
  exact (within_of_mem_items h).trans (within_of_get? (get?_of_get_ne_null hne))

/-- What holds of a value and of everything in it. -/
def Throughout (P : Tree → Prop) (t : Tree) : Prop :=
  ∀ s, Within s t → P s

variable {P : Tree → Prop}

theorem Throughout.here (h : Throughout P t) : P t :=
  h t (.self t)

theorem Throughout.within (h : Throughout P t) (hs : Within s t) : Throughout P s :=
  fun r hr => h r (hr.trans hs)

theorem Throughout.get? (h : Throughout P t) (hg : t.get? name = some v) : Throughout P v :=
  h.within (within_of_get? hg)

theorem Throughout.item (h : Throughout P t) (hs : s ∈ t.items) : Throughout P s :=
  h.within (within_of_mem_items hs)

theorem Throughout.value (h : Throughout P t) (hm : t.map? = some entries)
    (he : (key, v) ∈ entries) : Throughout P v :=
  h.within (within_of_mem_entries hm he)

theorem throughout_null (hP : P .null) : Throughout P .null := by
  intro s hs
  cases hs
  exact hP

theorem Throughout.get (h : Throughout P t) (hP : P .null) : Throughout P (t.get name) := by
  unfold Tree.get
  cases hg : t.get? name with
  | none => exact throughout_null hP
  | some v => exact h.get? hg

mutual

/-- A value and everything that stands in it. -/
def nodes : Tree → List Tree
  | .list items => .list items :: itemNodes items
  | .map entries => .map entries :: entryNodes entries
  | .recurring label t => .recurring label t :: t.nodes
  | t => [t]

def itemNodes : List Tree → List Tree
  | [] => []
  | item :: rest => item.nodes ++ itemNodes rest

def entryNodes : List (Tree × Tree) → List Tree
  | [] => []
  | (_, value) :: rest => value.nodes ++ entryNodes rest

end

section Nodes

theorem mem_nodes_self (t : Tree) : t ∈ t.nodes := by
  cases t <;> exact List.mem_cons_self

theorem nodes_subset_itemNodes {items : List Tree} (h : t ∈ items) :
    t.nodes ⊆ itemNodes items := by
  induction items with
  | nil => cases h
  | cons item rest ih =>
    rw [itemNodes]
    rcases List.mem_cons.mp h with rfl | h
    · exact List.subset_append_left _ _
    · exact List.subset_append_of_subset_right _ (ih h)

theorem nodes_subset_entryNodes (h : (key, v) ∈ entries) : v.nodes ⊆ entryNodes entries := by
  induction entries with
  | nil => cases h
  | cons e rest ih =>
    rw [entryNodes]
    rcases List.mem_cons.mp h with rfl | h
    · exact List.subset_append_left _ _
    · exact List.subset_append_of_subset_right _ (ih h)

theorem Within.mem_nodes (h : Within s t) : s ∈ t.nodes := by
  induction h with
  | self => exact mem_nodes_self _
  | item hm _ ih => exact List.mem_cons_of_mem _ (nodes_subset_itemNodes hm ih)
  | value hm _ ih => exact List.mem_cons_of_mem _ (nodes_subset_entryNodes hm ih)
  | label _ ih => exact List.mem_cons_of_mem _ ih

mutual

theorem within_of_mem_nodes {t : Tree} (h : s ∈ t.nodes) : Within s t := by
  cases t with
  | list items =>
    rcases List.mem_cons.mp h with rfl | h
    · exact .self _
    · obtain ⟨item, hm, hs⟩ := exists_item_of_mem_itemNodes h
      exact .item hm hs
  | map entries =>
    rcases List.mem_cons.mp h with rfl | h
    · exact .self _
    · obtain ⟨e, hm, hs⟩ := exists_entry_of_mem_entryNodes h
      exact .value hm hs
  | recurring label t =>
    rcases List.mem_cons.mp h with rfl | h
    · exact .self _
    · exact .label (within_of_mem_nodes h)
  | _ =>
    obtain rfl := List.mem_singleton.mp h
    exact .self _

theorem exists_item_of_mem_itemNodes {items : List Tree} (h : s ∈ itemNodes items) :
    ∃ item ∈ items, Within s item := by
  cases items with
  | nil => cases h
  | cons item rest =>
    rcases List.mem_append.mp h with h | h
    · exact ⟨item, List.mem_cons_self, within_of_mem_nodes h⟩
    · obtain ⟨other, hm, hs⟩ := exists_item_of_mem_itemNodes h
      exact ⟨other, List.mem_cons_of_mem _ hm, hs⟩

theorem exists_entry_of_mem_entryNodes {entries : List (Tree × Tree)}
    (h : s ∈ entryNodes entries) : ∃ e ∈ entries, Within s e.2 := by
  cases entries with
  | nil => cases h
  | cons e rest =>
    obtain ⟨key, v⟩ := e
    rcases List.mem_append.mp h with h | h
    · exact ⟨(key, v), List.mem_cons_self, within_of_mem_nodes h⟩
    · obtain ⟨other, hm, hs⟩ := exists_entry_of_mem_entryNodes h
      exact ⟨other, List.mem_cons_of_mem _ hm, hs⟩

end

theorem throughout_iff : Throughout P t ↔ ∀ s ∈ t.nodes, P s :=
  ⟨fun h s hs => h s (within_of_mem_nodes hs), fun h s hs => h s hs.mem_nodes⟩

instance [DecidablePred P] : Decidable (Throughout P t) :=
  decidable_of_iff _ throughout_iff.symm

end Nodes

end Tree

namespace Document
open ApiScaffold.Tree
variable {d : Document} {t v : Tree} {path : List Text} {r : Text}

theorem within_of_descend (h : descend t path = some v) : Within v t := by
  induction path generalizing t with
  | nil =>
    obtain rfl := Option.some.inj h
    exact .self _
  | cons key rest ih =>
    rw [descend] at h
    split at h
    · exact (ih h).trans (within_of_get? ‹_›)
    · cases h

theorem within_of_lookup (h : d.lookup r = some v) : Within v d.root := by
  unfold lookup at h
  split at h
  · exact within_of_descend h
  · cases h

end Document
end ApiScaffold
