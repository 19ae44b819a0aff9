import ApiScaffold.Proofs.Document.Correspondence.Operations

namespace ApiScaffold.Document

namespace Correspondence
variable {d d' : Document} (c : Correspondence d d') {t u : Tree}

theorem exists_recurring {label : Nat} {s : Tree} (h : c.node (.recurring label s) u) :
    ∃ s', u = .recurring label s' ∧ c.node s s' := by
  rcases option_rel_iff.mp (c.node_label h) with ⟨ht, -⟩ | ⟨⟨_, _⟩, ⟨_, s'⟩, ht, hu, hs⟩
  · cases ht
  · cases ht
    obtain ⟨rfl, hs⟩ := hs
    exact ⟨s', label?_eq_some hu, hs⟩

theorem not_recurring (h : c.node t u) (ht : ∀ label s, t ≠ .recurring label s) :
    ∀ label s, u ≠ .recurring label s := by
  rintro label s rfl
  rcases option_rel_iff.mp (c.node_label h) with ⟨-, hu⟩ | ⟨⟨label', s'⟩, _, hs, -, -⟩
  · cases hu
  · exact ht label' s' (label?_eq_some hs)

/-- Members under the same names, and the same ones required. -/
structure Joined (m m' : Members) : Prop where
  properties : Assoc.Related c.node m.properties m'.properties
  required : m'.required = m.required

theorem joined_empty : c.Joined .empty .empty :=
  ⟨.nil, rfl⟩

variable {c} in
theorem Joined.join {m m' n n' : Members} (h : c.Joined m m') (hn : c.Joined n n') :
    c.Joined (m.join n) (m'.join n') :=
  ⟨h.properties.putAll hn.properties, by
    rw [Members.join, Members.join, h.required, hn.required]⟩

theorem agree_own (h : c.node t u) :
    Agree c.rename c.Joined (Members.own t) (Members.own u) := by
  have hproperties : Agree c.rename (Assoc.Related c.node)
      (named ((t.get "properties").map?.getD [])) (named ((u.get "properties").map?.getD [])) := by
    apply c.agree_named
    rcases option_rel_iff.mp (c.value_entries (c.get "properties" h (by decide))) with
      ⟨ht, hu⟩ | ⟨es, es', ht, hu, hes⟩
    · rw [ht, hu]
      exact .nil
    · rw [ht, hu]
      exact hes
  have hrequired : Agree c.rename Eq ((t.get "required").items.mapM nameOf)
      ((t.get "required").items.mapM nameOf) :=
    agree_of_failsBy (FailsBy.mapM fun item _ =>
      failsBy_nameOf (p := (·.isRejection = false)) rfl item)
  unfold Members.own
  rw [c.node_required h]
  apply hproperties.bind
  intro properties properties' hp
  apply hrequired.bind
  rintro required _ rfl
  exact .ok ⟨hp, rfl⟩

theorem agree_withOwn {m m' : Members} (h : c.node t u) (hm : c.Joined m m') :
    Agree c.rename c.Joined (withOwn t m) (withOwn u m') := by
  apply (c.agree_own h).bind
  intro own own' hown
  exact .ok (hm.join hown)

theorem agree_joinAll {m m' : Members} {parts parts' : List (Traced Members)}
    (hm : c.Joined m m')
    (h : List.Forall₂ (fun x y => Agree c.rename c.Joined x.result y.result) parts parts') :
    Agree c.rename c.Joined (joinAll m parts).result (joinAll m' parts').result := by
  induction h generalizing m m' with
  | nil => exact .ok hm
  | cons hx _ ih =>
    rw [joinAll, joinAll, Traced.result_bind, Traced.result_bind]
    apply hx.bind
    intro n n' hn
    exact ih (hm.join hn)

section Expansion
variable {first first' : Tree} {entered : List Text} {around : List Nat}
  {h : t.texts ⊆ first.texts ++ d.root.texts} {h' : u.texts ⊆ first'.texts ++ d'.root.texts}

/-- The inline nodes that references lead to are expanded with one more reference around them. -/
theorem agree_expand_reference {r : Text} (hr : reference? t = some (.str r)) (hm : r ∉ entered)
    (hentered : ∀ s ∈ entered, c.known s) (hnode : c.node t u)
    (htarget : ∀ target target' ht ht', (d.follow t).result = .ok (some target) →
      (∀ s ∈ r :: entered, c.known s) → c.node target target' →
      Agree c.rename c.Joined (d.expandInline first (r :: entered) [] target ht).result
        (d'.expandInline first' ((r :: entered).map c.rename) [] target' ht').result) :
    Agree c.rename c.Joined (d.expand first entered around t h).result
      (d'.expand first' (entered.map c.rename) around u h').result := by
  obtain ⟨hknown, hu⟩ := c.node_reference_text hnode hr
  have hm' : c.rename r ∉ entered.map c.rename := by
    intro hin
    obtain ⟨s, hs, he⟩ := List.mem_map.mp hin
    exact hm (c.rename_injective (hentered s hs) hknown he ▸ hs)
  rcases (c.agree_follow hnode).cases with ⟨found, found', hf, hf', hfound⟩ | ⟨e, hf, hf'⟩
  · cases hfound with
    | none =>
      rw [expand_of_unresolved hr hm hf, expand_of_unresolved hu hm' hf']
      exact .ok c.joined_empty
    | some hinline =>
      rw [expand_of_target hr hm hf (texts_target_subset h hf),
        expand_of_target hu hm' hf' (texts_target_subset h' hf')]
      refine htarget _ _ _ _ hf ?_ hinline
      intro s hs
      rcases List.mem_cons.mp hs with rfl | hs
      · exact hknown
      · exact hentered s hs
  · rw [expand_of_failed hr hm hf, expand_of_failed hu hm' hf']
    exact .error e

theorem agree_expandInline_composed (ht : ∀ label s, t ≠ .recurring label s) (hnode : c.node t u)
    (hparts : ∀ p ∈ (t.get "allOf").items, ∀ p', c.node p p' → ∀ hp hp',
      Agree c.rename c.Joined (d.expand first entered around p hp).result
        (d'.expand first' (entered.map c.rename) around p' hp').result) :
    Agree c.rename c.Joined (d.expandInline first entered around t h).result
      (d'.expandInline first' (entered.map c.rename) around u h').result := by
  rw [expandInline_composed ht, expandInline_composed (c.not_recurring hnode ht)]
  have hitems : List.Forall₂ (fun p p' => Agree c.rename c.Joined
      (d.expandPart first entered around p).result
      (d'.expandPart first' (entered.map c.rename) around p').result)
      (t.get "allOf").items (u.get "allOf").items := by
    apply forall₂_imp_of_mem (c.items (c.get "allOf" hnode (by decide)))
    intro p hp p' hp' hpart
    have hsub : p.texts ⊆ first.texts ++ d.root.texts :=
      fun _ hm => h (Tree.texts_get_items_subset hp hm)
    have hsub' : p'.texts ⊆ first'.texts ++ d'.root.texts :=
      fun _ hm => h' (Tree.texts_get_items_subset hp' hm)
    rw [expandPart, dif_pos hsub, expandPart, dif_pos hsub']
    exact hparts p hp p' (c.value_node hpart) hsub hsub'
  have hjoined := c.agree_joinAll c.joined_empty
    (List.forall₂_map_left_iff.mpr (List.forall₂_map_right_iff.mpr hitems))
  apply hjoined.bind
  intro m m' hm
  exact c.agree_withOwn hnode hm

variable (h h') in
/-- By the recursion of the expansion of the first document, which that of the second one follows. -/
theorem agree_expand (hentered : ∀ r ∈ entered, c.known r) (hnode : c.node t u) :
    Agree c.rename c.Joined (d.expand first entered around t h).result
      (d'.expand first' (entered.map c.rename) around u h').result := by
  refine expand.induct d first
    (fun entered around t h => ∀ u h', (∀ r ∈ entered, c.known r) → c.node t u →
      Agree c.rename c.Joined (d.expand first entered around t h).result
        (d'.expand first' (entered.map c.rename) around u h').result)
    (fun entered around t h => ∀ u h', (∀ r ∈ entered, c.known r) → c.node t u →
      Agree c.rename c.Joined (d.expandInline first entered around t h).result
        (d'.expandInline first' (entered.map c.rename) around u h').result)
    ?inline ?entered ?reference ?notText ?again ?inside ?composed entered around t h u h'
    hentered hnode
  case inline =>
    intro entered around t h hr ih u h' hentered hnode
    rw [expand_of_inline hr, expand_of_inline (c.node_reference hnode hr)]
    exact ih u h' hentered hnode
  case entered =>
    intro entered around t h r hr hm u h' hentered hnode
    obtain ⟨-, hu⟩ := c.node_reference_text hnode hr
    rw [expand_of_entered hr hm, expand_of_entered hu (List.mem_map_of_mem hm)]
    exact .error _
  case reference =>
    intro entered around t h r hr hm ih u h' hentered hnode
    apply c.agree_expand_reference hr hm hentered hnode
    intro target target' _ _ hf hknown htarget
    exact ih target hf target' _ hknown htarget
  case notText =>
    intro entered around t h v hv hr u h' hentered hnode
    obtain ⟨w, hu, hw⟩ := c.node_reference_other hnode hr hv
    rw [expand_of_not_text hr hv, expand_of_not_text hu hw]
    exact .ok c.joined_empty
  case again =>
    intro entered around label s h hin _ u h' _ hnode
    obtain ⟨s', rfl, -⟩ := c.exists_recurring hnode
    rw [expandInline, expandInline, if_pos hin, if_pos hin]
    exact .error _
  case inside =>
    intro entered around label s h hin _ ih u h' hentered hnode
    obtain ⟨s', rfl, hs⟩ := c.exists_recurring hnode
    rw [expandInline, expandInline, if_neg hin, if_neg hin]
    exact ih s' _ hentered hs
  case composed =>
    intro entered around t h hplain parts _ ih u h' hentered hnode
    have ht : ∀ label s, t ≠ .recurring label s := by
      rintro label s rfl
      exact hplain label s h rfl HEq.rfl
    apply c.agree_expandInline_composed ht hnode
    intro p hp p' hpart _ hsub'
    exact ih p hp p' hsub' hentered hpart

end Expansion

theorem agree_members (h : c.node t u) :
    Agree c.rename c.Joined (d.members t).result (d'.members u).result :=
  c.agree_expand (List.subset_append_left _ _) (List.subset_append_left _ _) (by simp) h

theorem agree_columns (policy : Name.Policy) {m m' : Members} (h : c.Joined m m') :
    Agree c.rename Eq (columns policy m) (columns policy m') := by
  have hcolumns : Agree c.rename (List.Forall₂ Eq) (columns policy m) (columns policy m') := by
    apply Agree.mapM h.properties
    rintro ⟨name, s⟩ ⟨name', s'⟩ ⟨rfl, hs⟩
    have htype : Agree c.rename Eq (dataType s) (dataType s') := by
      rw [c.dataType_eq hs]
      exact agree_of_failsBy (failsBy_dataType (throughout_spares rfl rfl fun _ _ _ => rfl))
    unfold column
    rw [h.required]
    apply htype.bind
    rintro type _ rfl
    exact .ok rfl
  exact hcolumns.mono fun l l' hl => List.forall₂_eq_eq_eq ▸ hl

theorem agree_entityTable (policy : Name.Policy) {e e' : Tree × Tree} (hkey : e.1 = e'.1)
    (h : c.node e.2 e'.2) :
    Agree c.rename Eq (d.entityTable policy e) (d'.entityTable policy e') := by
  unfold entityTable table
  rw [← hkey]
  apply (agree_nameOf e.1).bind
  rintro name _ rfl
  simp only [Traced.result_bind, Traced.result_liftM, Traced.result_pure]
  apply (c.agree_members h).bind
  intro m m' hm
  apply (c.agree_columns policy hm).bind
  rintro columns _ rfl
  exact .ok rfl

/-- Entries under the same keys in the same order, which correspond. -/
def Entries (c : Correspondence d d') : Tree.Entries → Tree.Entries → Prop :=
  List.Forall₂ fun e e' => e.1 = e'.1 ∧ c.node e.2 e'.2

theorem agree_accepted (s : Spec) : Agree c.rename Eq (accepted s) (accepted s) := by
  unfold accepted
  split
  · exact .ok rfl
  · exact .error (.collisions s.collisions)

/-- Two documents with corresponding entities and paths are read alike. -/
theorem agree_reading (policy : Name.Policy)
    (hentities : c.Entries d.entitySchemas d'.entitySchemas)
    (hpaths : Option.Rel c.Entries d.pathItems d'.pathItems) :
    Agree c.rename Eq (d.reading policy) (d'.reading policy) := by
  have htables : Agree c.rename (List.Forall₂ Eq) (d.entitySchemas.mapM (d.entityTable policy))
      (d'.entitySchemas.mapM (d'.entityTable policy)) :=
    Agree.mapM hentities fun e e' he => c.agree_entityTable policy he.1 he.2
  unfold reading
  apply htables.bind
  intro tables tables' ht
  obtain rfl : tables = tables' := List.forall₂_eq_eq_eq ▸ ht
  rcases option_rel_iff.mp hpaths with ⟨hp, hp'⟩ | ⟨items, items', hp, hp', hitems⟩
  · simp only [hp, hp']
    exact .error .pathsNotObject
  · simp only [hp, hp']
    have hfunctions : Agree c.rename (List.Forall₂ Eq) (items.mapM d.pathEndpoints)
        (items'.mapM d'.pathEndpoints) :=
      Agree.mapM hitems fun e e' he => c.agree_pathEndpoints he.1 he.2
    apply hfunctions.bind
    intro functions functions' hf
    obtain rfl : functions = functions' := List.forall₂_eq_eq_eq ▸ hf
    exact c.agree_accepted _

end Correspondence
end ApiScaffold.Document
