import ApiScaffold.Proofs.Document.Reach
import Mathlib.Logic.Relation

namespace ApiScaffold.Document
open ApiScaffold.Tree Relation
variable {policy : Name.Policy} {d : Document} {p : Fault → Prop} {t : Tree}

/-- The node that the reference points at refers on. -/
def LeadsTo (d : Document) (r next : Text) : Prop :=
  ∃ t, d.lookup r = some t ∧ reference? t = some (.str next)

section Chains

/-- A chain of references that does not come back has an end. All references of the chain lead to
the next one. -/
theorem not_error_of_acyclic (hd : ∀ r, ¬ TransGen (LeadsTo d) r r) {chain : List Text} {r : Text}
    {e : Fault} (hchain : ∀ s ∈ chain, TransGen (LeadsTo d) s r) :
    (d.followReference chain r).result ≠ .error e := by
  fun_induction followReference d chain r with
  | case1 chain r hr => exact absurd (hchain r hr) (hd r)
  | case2 =>
    intro he
    cases he
  | case3 =>
    intro he
    cases he
  | case4 =>
    intro he
    cases he
  | case5 chain r hr next hne hl further hn ih =>
    have hstep : LeadsTo d r further := ⟨next, ‹_›, ‹_›⟩
    apply ih
    intro s hs
    rcases List.mem_append.mp hs with hs | hs
    · exact (hchain s hs).tail hstep
    · exact List.mem_singleton.mp hs ▸ .single hstep
  | case6 =>
    intro he
    cases he

/-- A node fails only as the chain from its own reference on does. -/
theorem failsBy_follow_of_reference (h : ∀ r, FailsBy p (d.followReference [] r).result)
    (t : Tree) : FailsBy p (d.follow t).result := by
  intro e he
  unfold follow at he
  split at he
  · cases he
  · exact h _ e he
  · cases he

theorem failsBy_follow (hd : ∀ r, ¬ TransGen (LeadsTo d) r r) (t : Tree) :
    FailsBy p (d.follow t).result :=
  failsBy_follow_of_reference (fun _ _ he => absurd he (not_error_of_acyclic hd (by simp))) t

end Chains

section Tables
variable {s : Site} {o : Except Fault Members}

/-- What the members of a schema come to: faults of the kind, or properties that are spared. -/
structure Yields (p : Fault → Prop) (o : Except Fault Members) : Prop where
  fails : FailsBy p o
  properties : ∀ m, o = .ok m → ∀ e ∈ m.properties, Throughout (Spares p) e.2

theorem yields_empty : Yields p (.ok .empty) := by
  refine ⟨failsBy_ok _, ?_⟩
  intro m hm e he
  cases hm
  cases he

theorem yields_withOwn {known : Members} (h : Throughout (Spares p) t)
    (hk : ∀ e ∈ known.properties, Throughout (Spares p) e.2) : Yields p (withOwn t known) := by
  refine ⟨?_, ?_⟩
  · apply (failsBy_own h).bind
    intro own _
    exact failsBy_ok _
  · intro m hm
    obtain ⟨own, hown, hm⟩ := ok_of_bind hm
    cases hm
    obtain ⟨properties, hproperties, hown⟩ := ok_of_bind hown
    obtain ⟨required, -, hown⟩ := ok_of_bind hown
    cases hown
    have hobject : Throughout (Spares p) (t.get "properties") := h.get spares_null
    apply Assoc.forall_putAll hk
    apply forall_named (Q := Throughout (Spares p)) ?_ hproperties
    intro e he
    cases hentries : (t.get "properties").map? with
    | none => simp [hentries] at he
    | some entries => exact hobject.value hentries (by simpa [hentries] using he)

theorem recurring_of_inside {label : Nat} (h : d.form s = .inside label t) :
    s.schema = .recurring label t := by
  cases hasForm h with
  | inside _ hs => exact hs

theorem forall_joined {Q : Tree → Prop} {ms : List Members} {known : Members}
    (hk : ∀ e ∈ known.properties, Q e.2) (h : ∀ m ∈ ms, ∀ e ∈ m.properties, Q e.2) :
    ∀ e ∈ (ms.foldl Members.join known).properties, Q e.2 := by
  induction ms generalizing known with
  | nil => exact hk
  | cons m rest ih =>
    have hjoined : ∀ e ∈ (known.join m).properties, Q e.2 :=
      Assoc.forall_putAll hk (h m List.mem_cons_self)
    exact ih hjoined fun n hn => h n (List.mem_cons_of_mem _ hn)

/-- By induction on the expansion, which stays in the schema and in the document. -/
theorem yields_of_ends (hroot : Throughout (Spares p) d.root) (h : Ends d s o)
    (hs : Throughout (Spares p) s.schema) : Yields p o := by
  induction h with
  | nothing => exact yields_empty
  | target hf _ ih => exact ih (hroot.within (within_of_lookup (lookup_of_form hf)))
  | again hf =>
    cases hasForm hf with
    | again _ ht =>
      have hendless : p .endless := hs.here.label.resolve_right (by simp [ht, label?])
      refine ⟨?_, by simp⟩
      intro e he
      cases he
      exact hendless
  | inside hf _ ih => exact ih (hs.within (recurring_of_inside hf ▸ .label (.self _)))
  | @composed s m hf _ ih =>
    have hparts : Throughout (Spares p) (s.schema.get "allOf") := hs.get spares_null
    apply yields_withOwn hs
    apply forall_joined
    · intro e he
      cases he
    · intro n hn
      obtain ⟨t, ht, rfl⟩ := List.mem_map.mp hn
      exact (ih t ht (hparts.item ht)).properties _ rfl
  | @failed s m before after t e hf hp hb _ _ ih =>
    have hparts : Throughout (Spares p) (s.schema.get "allOf") := hs.get spares_null
    have ht : t ∈ s.parts := by simp [hp]
    exact ih (hparts.item ht)

/-- An expansion that is not rejected has an outcome. -/
theorem yields_members (hroot : Throughout (Spares p) d.root) (ht : Throughout (Spares p) t)
    (hp : ∀ e, (d.members t).result = .error e → e.isRejection → p e) :
    Yields p (d.members t).result := by
  have hsound : Sound d [] ⟨[], t⟩ (d.members t).result :=
    sound_expand [] [] t (List.subset_append_left _ _)
  by_cases hr : Rejects (d.members t).result
  · obtain ⟨e, he, hreject⟩ := hr
    have hfault := hp e he hreject
    rw [he]
    refine ⟨?_, by simp⟩
    intro f hf
    cases hf
    exact hfault
  · exact yields_of_ends hroot (hsound.ends hr) ht

theorem failsBy_columns {m : Members} (h : ∀ e ∈ m.properties, Throughout (Spares p) e.2) :
    FailsBy p (columns policy m) := by
  apply FailsBy.mapM
  intro e he
  apply (failsBy_dataType (h e he)).bind
  intro type _
  exact failsBy_ok _

theorem failsBy_entityTable (hroot : Throughout (Spares p) d.root) {e : Tree × Tree}
    (hkey : FailsBy p (nameOf e.1)) (he : Throughout (Spares p) e.2)
    (hp : ∀ f, (d.members e.2).result = .error f → f.isRejection → p f) :
    FailsBy p (d.entityTable policy e) := by
  have hmembers := yields_members hroot he hp
  unfold entityTable table
  apply hkey.bind
  intro name _
  simp only [Traced.result_bind, Traced.result_liftM, Traced.result_pure]
  apply hmembers.fails.bind
  intro m hm
  apply (failsBy_columns (hmembers.properties m hm)).bind
  intro columns _
  exact failsBy_ok _

end Tables

section Entries
variable {entries : Entries}

/-- The entities stand in the document, all in one map. -/
theorem entitySchemas_eq (d : Document) :
    ∃ t, (∀ P : Tree → Prop, Throughout P d.root → P .null → Throughout P t) ∧
      d.entitySchemas = t.map?.getD [] := by
  unfold entitySchemas
  dsimp only
  split
  · exact ⟨d.root.get "definitions", fun P h hn => h.get hn, rfl⟩
  · exact ⟨(d.root.get "components").get "schemas", fun P h hn => (h.get hn).get hn, rfl⟩

theorem spares_entities (hroot : Throughout (Spares p) d.root) {e : Tree × Tree}
    (he : e ∈ d.entitySchemas) : FailsBy p (nameOf e.1) ∧ Throughout (Spares p) e.2 := by
  obtain ⟨t, ht, hentities⟩ := d.entitySchemas_eq
  have hspares := ht (Spares p) hroot spares_null
  rw [hentities] at he
  cases hm : t.map? with
  | none => simp [hm] at he
  | some entries =>
    have hmem : e ∈ entries := by simpa [hm] using he
    exact ⟨hspares.here.key hm e hmem, hspares.value hm hmem⟩

theorem spares_paths (hroot : Throughout (Spares p) d.root) {items : Entries}
    (hitems : d.pathItems = some items) {e : Tree × Tree} (he : e ∈ items) :
    FailsBy p (nameOf e.1) ∧ Throughout (Spares p) e.2 := by
  have hpaths : Throughout (Spares p) (d.root.get "paths") := hroot.get spares_null
  unfold pathItems at hitems
  split at hitems
  · exact ⟨hpaths.here.key hitems e he, hpaths.value hitems he⟩
  · cases hitems
    cases he

end Entries

section Readings

theorem failsBy_entity (hroot : Throughout (Spares p) d.root)
    (hp : ∀ e ∈ d.entitySchemas, ∀ f, (d.members e.2).result = .error f → f.isRejection → p f)
    {e : Tree × Tree} (he : e ∈ d.entitySchemas) : FailsBy p (d.entityTable policy e) := by
  obtain ⟨hkey, hschema⟩ := spares_entities hroot he
  exact failsBy_entityTable hroot hkey hschema (hp e he)

theorem failsBy_item (hroot : Throughout (Spares p) d.root)
    (hfollow : ∀ t, FailsBy p (d.follow t).result) {items : Entries}
    (hitems : d.pathItems = some items) {e : Tree × Tree} (he : e ∈ items) :
    FailsBy p (d.pathEndpoints e) := by
  obtain ⟨hkey, hitem⟩ := spares_paths hroot hitems he
  exact failsBy_pathEndpoints hroot hfollow hkey hitem

end Readings

end ApiScaffold.Document
