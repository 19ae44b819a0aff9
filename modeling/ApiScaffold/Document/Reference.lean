import ApiScaffold.Document.Fault
import ApiScaffold.Text.Replace
import ApiScaffold.Tree.Texts

namespace ApiScaffold

/-- A document, in whose root references are looked up. -/
structure Document where
  root : Tree
  deriving Repr

namespace Document

/-- A key as it is written inside a reference. -/
def unescape (part : Text) : Text :=
  Text.replacePair (.char '~') (.char '0') "~" (Text.replacePair (.char '~') (.char '1') "/" part)

/-- Goes down from key to key. -/
def descend (t : Tree) : List Text → Option Tree
  | [] => some t
  | key :: rest =>
    match t.get? key with
    | some v => descend v rest
    | none => none

/-- The node that a reference points at. Only references into the document itself are known. -/
def lookup (d : Document) (reference : Text) : Option Tree :=
  match reference with
  | .char '#' :: .char '/' :: path => descend d.root ((Text.pieces (.char '/') path).map unescape)
  | _ => none

/-- The last key of a reference. -/
def referenceName (reference : Text) : Text :=
  unescape (Text.afterLast (.char '/') reference)

/-- The reference that a node stands for. -/
def reference? (t : Tree) : Option Tree :=
  t.get? "$ref"

theorem texts_descend_subset {t v : Tree} {path : List Text} (h : descend t path = some v) :
    v.texts ⊆ t.texts := by
  induction path generalizing t with
  | nil => obtain rfl := Option.some.inj h; exact List.Subset.refl _
  | cons key rest ih =>
    rw [descend] at h
    split at h
    · exact List.Subset.trans (ih h) (Tree.texts_get?_subset ‹_›)
    · cases h

/-- What is looked up in a document is a part of it. -/
theorem texts_lookup_subset {d : Document} {r : Text} {v : Tree} (h : d.lookup r = some v) :
    v.texts ⊆ d.root.texts := by
  unfold lookup at h
  split at h
  · exact texts_descend_subset h
  · cases h

/-- The reference that a node stands for is one of its texts. -/
theorem mem_texts_of_reference? {t : Tree} {r : Text} (h : reference? t = some (.str r)) :
    r ∈ t.texts :=
  Tree.texts_get?_subset h (by simp [Tree.texts])

/-- How many references can still be followed from `r` on: those of the document that were not
followed yet, and `r` itself if it is none of the document. -/
def unfollowed (d : Document) (chain : List Text) (r : Text) : Nat :=
  (d.root.texts.filter (· ∉ chain)).length + if r ∈ d.root.texts then 0 else 1

theorem length_filter_lt {texts chain more : List Text} {r : Text} (hm : r ∈ texts)
    (hr : r ∉ chain) (hmore : r ∈ more) (hsub : chain ⊆ more) :
    (texts.filter (· ∉ more)).length < (texts.filter (· ∉ chain)).length := by
  have h : texts.filter (· ∉ more) = (texts.filter (· ∉ chain)).filter (· ∉ more) := by
    rw [List.filter_filter]
    refine List.filter_congr fun s _ => ?_
    by_cases hs : s ∈ more <;> simp [hs]
    exact fun hc => hs (hsub hc)
  rw [h, List.length_filter_lt_length_iff_exists]
  exact ⟨r, List.mem_filter.2 ⟨hm, by simpa using hr⟩, by simpa using hmore⟩

theorem unfollowed_lt {d : Document} {chain : List Text} {r next : Text} (hr : r ∉ chain)
    (hn : next ∈ d.root.texts) : d.unfollowed (chain ++ [r]) next < d.unfollowed chain r := by
  unfold unfollowed
  rw [if_pos hn]
  by_cases hm : r ∈ d.root.texts
  · rw [if_pos hm]
    exact length_filter_lt hm hr (by simp) (List.subset_append_left _ _)
  · rw [if_neg hm]
    rw [← List.countP_eq_length_filter, ← List.countP_eq_length_filter]
    exact Nat.lt_succ_of_le (List.countP_mono_left fun s _ hs => by simp_all)

/-- Follows a reference, and then those that it leads to, until a node is none. `chain` are the
references that led here; one of them once more closes a cycle. -/
def followReference (d : Document) (chain : List Text) (r : Text) : Traced (Option Tree) :=
  if _hr : r ∈ chain then Traced.fail (.referenceCycle (chain ++ [r]))
  else
    match _hl : d.lookup r with
    | none | some .null => do
      Traced.note (.unresolved r)
      pure none
    | some next =>
      match _hn : reference? next with
      | none => pure (some next)
      | some (.str further) => followReference d (chain ++ [r]) further
      | some _ => pure none
termination_by d.unfollowed chain r
decreasing_by
  exact unfollowed_lt ‹_› (texts_lookup_subset ‹_› (mem_texts_of_reference? ‹_›))

/-- The inline node at the end of a chain of references; none when a link is missing. -/
def follow (d : Document) (node : Tree) : Traced (Option Tree) :=
  match reference? node with
  | none => pure (some node)
  | some (.str r) => d.followReference [] r
  | some _ => pure none

theorem texts_followReference_subset {d : Document} {chain : List Text} {r : Text} {t : Tree}
    (h : (d.followReference chain r).result = .ok (some t)) : t.texts ⊆ d.root.texts := by
  fun_induction followReference d chain r with
  | case1 => cases h
  | case2 => cases h
  | case3 => cases h
  | case4 chain r hr next hne hn hl =>
    cases h
    exact texts_lookup_subset ‹_›
  | case5 chain r hr next hl _ further hn ih => exact ih h
  | case6 => cases h

/-- A node that was found is the given one or a part of the document. -/
theorem texts_follow_subset {d : Document} {node t : Tree}
    (h : (d.follow node).result = .ok (some t)) : t.texts ⊆ node.texts ++ d.root.texts := by
  unfold follow at h
  split at h
  · cases h
    exact List.subset_append_left _ _
  · exact List.subset_append_of_subset_right _ (texts_followReference_subset h)
  · cases h

/-- Like `follow`, for uses where a missing node and one that is no object count alike. -/
def followObject (d : Document) (node : Tree) : Traced (Option Tree) := do
  let found ← d.follow node
  pure (found.filter (·.map?.isSome))

end Document
end ApiScaffold
