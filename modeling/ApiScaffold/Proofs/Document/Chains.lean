import ApiScaffold.Proofs.Document.Expansion
import Mathlib.Data.List.Nodup
import Mathlib.Data.List.Perm.Subperm
import Mathlib.Order.WellFounded

namespace ApiScaffold.Document
open Relation

/-- What a reference points at. A null is nothing to point at. -/
def target? (d : Document) (r : Text) : Option Tree :=
  (d.lookup r).filter (!·.isNull)

/-- One link of a chain: a node is replaced by the target of its reference. -/
def Link (d : Document) (t u : Tree) : Prop :=
  ∃ r, reference? t = some (.str r) ∧ d.target? r = some u

/-- Links one after the other, with the references that they go through. -/
inductive Chain (d : Document) : Tree → List Text → Tree → Prop
  | nil (t : Tree) : Chain d t [] t
  | cons {t u v : Tree} {r : Text} {refs : List Text} (hr : reference? t = some (.str r))
      (hu : d.target? r = some u) (h : Chain d u refs v) : Chain d t (r :: refs) v

/-- A chain that never ends. -/
def Endless (d : Document) (t : Tree) : Prop :=
  ∃ nodes : Nat → Tree, nodes 0 = t ∧ ∀ n, d.Link (nodes n) (nodes (n + 1))

/-- A node whose reference is no text or leads nowhere. -/
def Broken (d : Document) (t : Tree) : Prop :=
  ∃ v, reference? t = some v ∧ ∀ r, v = .str r → d.target? r = none

/-- Where a chain can stop: at a node that is no reference, at one that cannot be replaced, or at
a reference that it went through before. -/
inductive Stop (d : Document) (refs : List Text) (u : Tree) :
    Except Fault (Option Tree) → Prop
  | found (hu : reference? u = none) : Stop d refs u (.ok (some u))
  | broken (hu : d.Broken u) : Stop d refs u (.ok none)
  | again {r : Text} (hu : reference? u = some (.str r)) (hr : r ∈ refs) :
      Stop d refs u (.error (.referenceCycle (refs ++ [r])))

section Links
variable {d : Document} {t u v w : Tree} {r : Text} {refs more : List Text}

theorem lookup_of_target? (h : d.target? r = some u) : d.lookup r = some u :=
  (Option.filter_eq_some_iff.mp h).1

theorem Link.unique (h : d.Link t u) (h' : d.Link t v) : u = v := by
  obtain ⟨r, hr, hu⟩ := h
  obtain ⟨q, hq, hv⟩ := h'
  obtain rfl : r = q := by simpa [hr] using hq
  exact Option.some.inj (hu.symm.trans hv)

theorem Chain.snoc (h : Chain d t refs u) (hr : reference? u = some (.str r))
    (hv : d.target? r = some v) : Chain d t (refs ++ [r]) v := by
  induction h with
  | nil => exact .cons hr hv (.nil v)
  | cons hq hw _ ih => exact .cons hq hw (ih hr)

theorem Chain.links (h : Chain d t refs u) : ReflTransGen d.Link t u := by
  induction h with
  | nil => exact .refl
  | cons hr hu _ ih => exact .head ⟨_, hr, hu⟩ ih

/-- Behind a reference that a chain went through stands its target. -/
theorem Chain.through (h : Chain d t refs u) (hr : r ∈ refs) :
    ∃ v, d.target? r = some v ∧ ReflTransGen d.Link t v ∧ ReflTransGen d.Link v u := by
  induction h with
  | nil => cases hr
  | cons hq hu h ih =>
    rcases List.mem_cons.mp hr with rfl | hr
    · exact ⟨_, hu, .single ⟨_, hq, hu⟩, h.links⟩
    · obtain ⟨w, hw, hfrom, hto⟩ := ih hr
      exact ⟨w, hw, .head ⟨_, hq, hu⟩ hfrom, hto⟩

theorem not_link_of_none (h : reference? t = none) : ¬ d.Link t u := by
  rintro ⟨r, hr, -⟩
  rw [h] at hr
  cases hr

theorem not_broken_of_none (h : reference? t = none) : ¬ d.Broken t := by
  rintro ⟨v, hv, -⟩
  rw [h] at hv
  cases hv

theorem Broken.not_link (h : d.Broken t) : ¬ d.Link t u := by
  rintro ⟨r, hr, hu⟩
  obtain ⟨v, hv, hnone⟩ := h
  rw [hnone r (Option.some.inj (hv.symm.trans hr))] at hu
  cases hu

/-- Chains from one node that cannot go on stop at one node. -/
theorem Chain.end_unique (h : Chain d t refs u) (hu : ∀ w, ¬ d.Link u w)
    (h' : Chain d t more v) (hv : ∀ w, ¬ d.Link v w) : u = v := by
  induction h generalizing more with
  | nil =>
    cases h' with
    | nil => rfl
    | cons hr hw => exact absurd ⟨_, hr, hw⟩ (hu _)
  | cons hr hw _ ih =>
    cases h' with
    | nil => exact absurd ⟨_, hr, hw⟩ (hv _)
    | cons hr' hw' h' =>
      obtain rfl := Link.unique ⟨_, hr, hw⟩ ⟨_, hr', hw'⟩
      exact ih hu h'

end Links

section Endings
variable {d : Document} {t u : Tree} {r : Text} {refs : List Text}

/-- A chain goes on for ever when no finite number of links exhausts it. -/
theorem endless_iff : d.Endless t ↔ ¬ Acc (fun v u => d.Link u v) t := by
  rw [not_acc_iff_exists_descending_chain]
  exact Iff.rfl

theorem Chain.acc (h : Chain d t refs u) (hu : ∀ w, ¬ d.Link u w) :
    Acc (fun v u => d.Link u v) t := by
  induction h with
  | nil => exact .intro _ fun w hw => absurd hw (hu w)
  | cons hr hv _ ih => exact .intro _ fun w hw => Link.unique ⟨_, hr, hv⟩ hw ▸ ih hu

/-- The target of a repeated reference leads back to itself. -/
theorem Chain.endless (h : Chain d t refs u) (hu : reference? u = some (.str r))
    (hr : r ∈ refs) : d.Endless t := by
  rw [endless_iff]
  intro hacc
  obtain ⟨v, hv, hfrom, hto⟩ := h.through hr
  exact not_cycle_of_acc (acc_of_steps hacc hfrom) hto ⟨r, hu, hv⟩

/-- All references of a chain but the first stand in the document. -/
theorem Chain.subset_texts (h : Chain d t (r :: refs) u) : refs ⊆ d.root.texts := by
  generalize hchain : r :: refs = all at h
  induction h generalizing r refs with
  | nil => cases hchain
  | cons _ hv h ih =>
    cases hchain
    cases h with
    | nil => exact List.nil_subset _
    | cons hq hw h =>
      have hmem := texts_lookup_subset (lookup_of_target? hv) (mem_texts_of_reference? hq)
      exact List.cons_subset.mpr ⟨hmem, ih rfl⟩

/-- So a chain that repeats no reference is no longer than the document allows. -/
theorem Chain.length_le (h : Chain d t refs u) (hn : refs.Nodup) :
    refs.length ≤ d.root.texts.length + 1 := by
  cases refs with
  | nil => exact Nat.zero_le _
  | cons r refs =>
    have hsub := h.subset_texts
    have hrest := (List.subperm_of_subset (List.nodup_cons.mp hn).2 hsub).length_le
    exact Nat.succ_le_succ hrest

end Endings

section Following
variable {d : Document} {t u : Tree} {r : Text} {refs : List Text}

theorem nodup_snoc (hn : refs.Nodup) (hr : r ∉ refs) : (refs ++ [r]).Nodup := by
  rw [← List.concat_eq_append]
  exact List.Nodup.concat hr hn

theorem target?_eq_none (h : d.lookup r = none) : d.target? r = none := by
  rw [target?, h]
  rfl

theorem target?_null (h : d.lookup r = some .null) : d.target? r = none := by
  rw [target?, h]
  rfl

theorem target?_eq_some (h : d.lookup r = some u) (hu : u ≠ .null) : d.target? r = some u := by
  rw [target?, h]
  refine Option.filter_eq_some_iff.mpr ⟨rfl, ?_⟩
  cases u <;> first | rfl | exact absurd rfl hu

/-- One link more for each step, by recursion with the search. No reference is gone through
twice, since it would be in the chain. -/
theorem stop_followReference (h : Chain d t refs u) (hn : refs.Nodup)
    (hu : reference? u = some (.str r)) :
    ∃ all v, Chain d t all v ∧ all.Nodup ∧ Stop d all v (d.followReference refs r).result := by
  fun_induction followReference d refs r generalizing u with
  | case1 refs r hr => exact ⟨refs, u, h, hn, .again hu hr⟩
  | case2 refs r hr hl =>
    refine ⟨refs, u, h, hn, .broken ⟨_, hu, ?_⟩⟩
    rintro q ⟨⟩
    exact target?_eq_none hl
  | case3 refs r hr hl =>
    refine ⟨refs, u, h, hn, .broken ⟨_, hu, ?_⟩⟩
    rintro q ⟨⟩
    exact target?_null hl
  | case4 refs r hr next hne hl hnext =>
    have hchain := h.snoc hu (target?_eq_some hl hne)
    exact ⟨refs ++ [r], next, hchain, nodup_snoc hn hr, .found hnext⟩
  | case5 refs r hr next hne hl further hnext ih =>
    have hchain := h.snoc hu (target?_eq_some hl hne)
    exact ih hchain (nodup_snoc hn hr) hnext
  | case6 refs r hr next hne hl v hv hnext =>
    have hchain := h.snoc hu (target?_eq_some hl hne)
    refine ⟨refs ++ [r], next, hchain, nodup_snoc hn hr, .broken ⟨v, hnext, ?_⟩⟩
    intro q hq
    exact absurd hq (hv q)

/-- Following a node goes along its chain up to a stop. -/
theorem stop_follow (d : Document) (t : Tree) :
    ∃ refs u, Chain d t refs u ∧ refs.Nodup ∧ Stop d refs u (d.follow t).result := by
  unfold follow
  split
  · exact ⟨[], t, .nil t, .nil, .found ‹_›⟩
  · exact stop_followReference (.nil t) .nil ‹_›
  · rename_i v hv hr
    refine ⟨[], t, .nil t, .nil, .broken ⟨v, hr, ?_⟩⟩
    intro q hq
    exact absurd hq (hv q)

theorem follow_of_none (h : reference? t = none) : d.follow t = pure (some t) := by
  rw [follow, h]

/-- Following a node goes along its chain, never twice through one reference, to where the chain
stops, and a cycle is told with the references up to the repeated one. It fails just when the chain
never ends; it gives nothing just when the chain is broken, and otherwise the first node of the
chain that is no reference, which leads to itself. -/
theorem follow_spec (d : Document) (t : Tree) :
    (∃ refs u, Chain d t refs u ∧ refs.Nodup ∧ refs.length ≤ d.root.texts.length + 1 ∧
      Stop d refs u (d.follow t).result) ∧
    ((∃ e, (d.follow t).result = .error e) ↔ d.Endless t) ∧
    ((d.follow t).result = .ok none ↔ ∃ refs u, Chain d t refs u ∧ d.Broken u) ∧
    ∀ u, (d.follow t).result = .ok (some u) ↔
      (∃ refs, Chain d t refs u) ∧ reference? u = none ∧ d.follow u = pure (some u) := by
  obtain ⟨refs, v, hchain, hn, hstop⟩ := stop_follow d t
  refine ⟨⟨refs, v, hchain, hn, hchain.length_le hn, hstop⟩, ?_⟩
  generalize (d.follow t).result = o at hstop
  cases hstop with
  | found hv =>
    have hlast : ∀ w, ¬ d.Link v w := fun w => not_link_of_none hv
    refine ⟨⟨by simp, ?_⟩, ⟨by simp, ?_⟩, fun u => ⟨?_, ?_⟩⟩
    · intro hendless
      exact absurd (hchain.acc hlast) (endless_iff.mp hendless)
    · rintro ⟨more, u, hmore, hbroken⟩
      obtain rfl := hchain.end_unique hlast hmore fun w => hbroken.not_link
      obtain ⟨x, hx, -⟩ := hbroken
      rw [hv] at hx
      cases hx
    · rintro ⟨⟩
      exact ⟨⟨refs, hchain⟩, hv, follow_of_none hv⟩
    · rintro ⟨⟨more, hmore⟩, hu, -⟩
      rw [hchain.end_unique hlast hmore fun w => not_link_of_none hu]
  | broken hv =>
    have hlast : ∀ w, ¬ d.Link v w := fun w => hv.not_link
    refine ⟨⟨by simp, ?_⟩, ⟨fun _ => ⟨refs, v, hchain, hv⟩, fun _ => rfl⟩, fun u => ⟨by simp, ?_⟩⟩
    · intro hendless
      exact absurd (hchain.acc hlast) (endless_iff.mp hendless)
    · rintro ⟨⟨more, hmore⟩, hu, -⟩
      obtain rfl := hchain.end_unique hlast hmore fun w => not_link_of_none hu
      obtain ⟨x, hx, -⟩ := hv
      rw [hu] at hx
      cases hx
  | again hv hr =>
    have hendless := hchain.endless hv hr
    have hnot := endless_iff.mp hendless
    refine ⟨⟨fun _ => hendless, fun _ => ⟨_, rfl⟩⟩, ⟨by simp, ?_⟩, fun u => ⟨by simp, ?_⟩⟩
    · rintro ⟨more, u, hmore, hbroken⟩
      exact absurd (hmore.acc fun w => hbroken.not_link) hnot
    · rintro ⟨⟨more, hmore⟩, hu, -⟩
      exact absurd (hmore.acc fun w => not_link_of_none hu) hnot

end Following

end ApiScaffold.Document
