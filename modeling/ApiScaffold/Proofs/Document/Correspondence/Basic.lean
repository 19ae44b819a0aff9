import ApiScaffold.Proofs.Document.Agreement

namespace ApiScaffold.Document

/-- The fields that are read on their own: the reference of a node, and the entities. -/
def special : List Text :=
  ["$ref", "schemas"]

/-- How two documents are read alike, although their references differ. Corresponding nodes are
what references and schemas lead to; corresponding values stand under one field, so they agree in
their texts too. -/
structure Correspondence (d d' : Document) where
  /-- What a reference of the first document is in the second one. -/
  rename : Text → Text
  /-- The references that the first document can hold. -/
  known : Text → Prop
  node : Tree → Tree → Prop
  value : Tree → Tree → Prop
  rename_injective : ∀ {r s : Text}, known r → known s → rename r = rename s → r = s
  referenceName_rename : ∀ {r : Text}, known r → referenceName (rename r) = referenceName r
  lookup : ∀ {r : Text}, known r → Option.Rel node (d.lookup r) (d'.lookup (rename r))
  node_isNull : ∀ {t u : Tree}, node t u → u.isNull = t.isNull
  node_isObject : ∀ {t u : Tree}, node t u → u.map?.isSome = t.map?.isSome
  node_label : ∀ {t u : Tree}, node t u →
    Option.Rel (fun a b => a.1 = b.1 ∧ node a.2 b.2) (label? t) (label? u)
  node_reference : ∀ {t u : Tree}, node t u → reference? t = none → reference? u = none
  node_reference_text : ∀ {t u : Tree} {r : Text}, node t u → reference? t = some (.str r) →
    known r ∧ reference? u = some (.str (rename r))
  node_reference_other : ∀ {t u v : Tree}, node t u → reference? t = some v →
    (∀ r, v ≠ .str r) → ∃ w, reference? u = some w ∧ ∀ r, w ≠ .str r
  node_field : ∀ {t u : Tree} (name : Text), node t u → name ∉ special →
    Option.Rel value (t.get? name) (u.get? name)
  node_required : ∀ {t u : Tree}, node t u →
    (u.get "required").items.mapM nameOf = (t.get "required").items.mapM nameOf
  value_null : value .null .null
  value_node : ∀ {t u : Tree}, value t u → node t u
  value_text : ∀ {t u : Tree}, value t u → u.str? = t.str?
  value_isTruthy : ∀ {t u : Tree}, value t u → u.isTruthy = t.isTruthy
  value_list : ∀ {t u : Tree}, value t u → Option.Rel (List.Forall₂ value) t.list? u.list?
  value_entries : ∀ {t u : Tree}, value t u →
    Option.Rel (List.Forall₂ fun e e' => e.1 = e'.1 ∧ node e.2 e'.2) t.map? u.map?

namespace Correspondence
variable {d d' : Document} (c : Correspondence d d') {t u : Tree}

section Fields
variable (name : Text)

theorem get (h : c.node t u) (hn : name ∉ special) :
    c.value (t.get name) (u.get name) := by
  unfold Tree.get
  rcases option_rel_iff.mp (c.node_field name h hn) with ⟨ht, hu⟩ | ⟨v, w, ht, hu, hvw⟩
  · rw [ht, hu]
    exact c.value_null
  · rw [ht, hu]
    exact hvw

theorem get_text (h : c.node t u) (hn : name ∉ special) :
    (u.get name).str? = (t.get name).str? :=
  c.value_text (c.get name h hn)

theorem has (h : c.node t u) (hn : name ∉ special) :
    u.has name = t.has name := by
  unfold Tree.has
  rcases option_rel_iff.mp (c.node_field name h hn) with ⟨ht, hu⟩ | ⟨v, w, ht, hu, -⟩
  · rw [ht, hu]
  · rw [ht, hu]
    rfl

theorem items (h : c.value t u) : List.Forall₂ c.value t.items u.items := by
  unfold Tree.items
  rcases option_rel_iff.mp (c.value_list h) with ⟨ht, hu⟩ | ⟨l, l', ht, hu, hl⟩
  · rw [ht, hu]
    exact .nil
  · rw [ht, hu]
    exact hl

theorem present (h : c.node t u) (hn : name ∉ special) :
    Option.Rel c.value (present? t name) (present? u name) := by
  unfold present?
  rcases option_rel_iff.mp (c.node_field name h hn) with ⟨ht, hu⟩ | ⟨v, w, ht, hu, hvw⟩
  · rw [ht, hu]
    exact .none
  · rw [ht, hu, Option.filter_some, Option.filter_some, c.node_isNull (c.value_node hvw)]
    split
    · exact .some hvw
    · exact .none

theorem isNone_reference (h : c.node t u) : (reference? u).isNone = (reference? t).isNone := by
  cases hr : reference? t with
  | none => rw [c.node_reference h hr]
  | some v =>
    cases v with
    | str r =>
      obtain ⟨-, hu⟩ := c.node_reference_text h hr
      rw [hu]
      rfl
    | _ =>
      obtain ⟨w, hu, -⟩ := c.node_reference_other h hr (by simp)
      rw [hu]
      rfl

theorem not_text (h : c.node t u) (ht : ∀ r, reference? t ≠ some (.str r)) :
    ∀ r, reference? u ≠ some (.str r) := by
  intro r hu
  cases hr : reference? t with
  | none =>
    rw [c.node_reference h hr] at hu
    cases hu
  | some v =>
    obtain ⟨w, hw, hother⟩ := c.node_reference_other h hr fun s hs => ht s (hr.trans (congrArg _ hs))
    exact hother r (Option.some.inj (hw.symm.trans hu))

end Fields

section Types

theorem typeName_eq (h : c.node t u) : typeName u = typeName t := by
  have htype := c.get "type" h (by decide)
  unfold typeName
  rcases option_rel_iff.mp (c.value_list htype) with ⟨ht, hu⟩ | ⟨names, names', ht, hu, hnames⟩
  · simp only [ht, hu]
    exact c.value_text htype
  · simp only [ht, hu]
    have hfilter : List.Forall₂ c.value
        (names.filter fun t => t.str? != some ("null" : Text))
        (names'.filter fun t => t.str? != some ("null" : Text)) := by
      refine List.rel_filter (fun a b hab => ?_) hnames
      dsimp only
      rw [c.value_text hab]
    generalize names.filter (fun t => t.str? != some ("null" : Text)) = kept at hfilter ⊢
    generalize names'.filter (fun t => t.str? != some ("null" : Text)) = kept' at hfilter ⊢
    cases hfilter with
    | nil => rfl
    | cons hab hrest =>
      cases hrest with
      | nil => exact c.value_text hab
      | cons => rfl

theorem primitiveOf_eq (h : c.node t u) (name : Option Text) :
    primitiveOf name u = primitiveOf name t := by
  have hformat := c.get_text "format" h (by decide)
  unfold primitiveOf
  rw [hformat]

/-- One part is met by one part, and more or none by as many. -/
theorem allOf_cases (h : c.node t u) :
    (∃ part part', (t.get "allOf").items = [part] ∧ (u.get "allOf").items = [part'] ∧
      c.node part part') ∨
    ((∀ part, (t.get "allOf").items ≠ [part]) ∧ ∀ part, (u.get "allOf").items ≠ [part]) := by
  have hparts := c.items (c.get "allOf" h (by decide))
  generalize (t.get "allOf").items = parts at hparts ⊢
  generalize (u.get "allOf").items = parts' at hparts ⊢
  cases hparts with
  | nil => exact .inr ⟨by simp, by simp⟩
  | cons hab hrest =>
    cases hrest with
    | nil => exact .inl ⟨_, _, rfl, rfl, c.value_node hab⟩
    | cons => exact .inr ⟨by simp, by simp⟩

theorem typedFields_eq {inside : Tree → Except Fault DataType} {entries entries' : Tree.Entries}
    (h : List.Forall₂ (fun e e' => e.1 = e'.1 ∧ c.node e.2 e'.2) entries entries')
    (hinside : ∀ e ∈ entries, ∀ u, c.node e.2 u → inside u = inside e.2) :
    entries'.mapM (typedField inside) = entries.mapM (typedField inside) := by
  induction h with
  | nil => rfl
  | @cons e e' rest rest' he _ ih =>
    obtain ⟨hkey, hvalue⟩ := he
    have hfirst : typedField inside e' = typedField inside e := by
      rw [typedField, typedField, hinside e List.mem_cons_self _ hvalue, hkey]
    rw [List.mapM_cons, List.mapM_cons, hfirst,
      ih fun e he => hinside e (List.mem_cons_of_mem _ he)]

theorem declaredType_eq {inside : Tree → Except Fault DataType} (h : c.node t u)
    (hinside : ∀ s s', sizeOf s < sizeOf t → c.node s s' → inside s' = inside s) :
    declaredType inside u = declaredType inside t := by
  have hproperties := c.get "properties" h (by decide)
  unfold declaredType
  rw [c.typeName_eq h, c.has "properties" h (by decide), c.primitiveOf_eq h]
  split
  · rcases option_rel_iff.mp (c.node_field "items" h (by decide)) with
      ⟨ht, hu⟩ | ⟨items, items', ht, hu, hitems⟩
    · simp only [ht, hu]
    · simp only [ht, hu]
      rw [hinside _ _ (Tree.sizeOf_get?_lt ht) (c.value_node hitems)]
  · split
    · rcases option_rel_iff.mp (c.value_entries hproperties) with
        ⟨ht, hu⟩ | ⟨entries, entries', ht, hu, hentries⟩
      · simp only [ht, hu]
      · simp only [ht, hu]
        rw [c.typedFields_eq hentries fun e he s hs =>
          hinside _ _ (Tree.sizeOf_get_value_lt ht he) hs]
    · rfl

/-- The type of a schema is read alike where the types of smaller ones are. -/
theorem dataTypeStep_eq {inside : Tree → Except Fault DataType} (h : c.node t u)
    (hinside : ∀ s s', sizeOf s < sizeOf t → c.node s s' → inside s' = inside s) :
    dataTypeStep inside u = dataTypeStep inside t := by
  by_cases href : ∃ r, reference? t = some (.str r)
  · obtain ⟨r, hr⟩ := href
    obtain ⟨hknown, hu⟩ := c.node_reference_text h hr
    rw [dataTypeStep_of_reference hr, dataTypeStep_of_reference hu,
      c.referenceName_rename hknown]
  · have ht : ∀ r, reference? t ≠ some (.str r) := fun r hr => href ⟨r, hr⟩
    have hu := c.not_text h ht
    rcases c.allOf_cases h with ⟨part, part', hp, hp', hpart⟩ | ⟨hp, hp'⟩
    · have hmem : part ∈ (t.get "allOf").items := by simp [hp]
      rw [dataTypeStep_of_part ht hp, dataTypeStep_of_part hu hp',
        hinside _ _ (Tree.sizeOf_get_items_lt hmem) hpart]
    · rw [dataTypeStep_of_declared ht hp, dataTypeStep_of_declared hu hp',
        c.declaredType_eq h hinside]

theorem dataTypeWithin_eq (around : List Nat) (t u : Tree) (h : c.node t u) :
    dataTypeWithin around u = dataTypeWithin around t := by
  rcases option_rel_iff.mp (c.node_label h) with ⟨ht, hu⟩ | ⟨⟨label, s⟩, ⟨label', s'⟩, ht, hu, hs⟩
  · rw [dataTypeWithin_eq_step ht, dataTypeWithin_eq_step hu]
    exact c.dataTypeStep_eq h fun s s' _ hs => dataTypeWithin_eq around s s' hs
  · obtain ⟨rfl, hs⟩ := hs
    obtain rfl := label?_eq_some ht
    obtain rfl := label?_eq_some hu
    rw [dataTypeWithin_recurring, dataTypeWithin_recurring, dataTypeWithin_eq _ s s' hs]
termination_by sizeOf t
decreasing_by
  · assumption
  · exact sizeOf_label_lt ‹_›

theorem dataType_eq (h : c.node t u) : dataType u = dataType t :=
  c.dataTypeWithin_eq [] t u h

end Types

section References

theorem agree_followFrom {chain : List Text} (h : c.node t u)
    (hr : ∀ r, reference? t = some (.str r) → c.known r →
      Agree c.rename (Option.Rel c.node) (d.followReference chain r).result
        (d'.followReference (chain.map c.rename) (c.rename r)).result) :
    Agree c.rename (Option.Rel c.node) (d.followFrom chain t)
      (d'.followFrom (chain.map c.rename) u) := by
  unfold followFrom
  cases href : reference? t with
  | none =>
    simp only [c.node_reference h href]
    exact .ok (.some h)
  | some v =>
    by_cases htext : ∃ r, v = .str r
    · obtain ⟨r, rfl⟩ := htext
      obtain ⟨hknown, hu⟩ := c.node_reference_text h href
      simp only [hu]
      exact hr r href hknown
    · have hv : ∀ r, v ≠ .str r := fun r he => htext ⟨r, he⟩
      obtain ⟨w, hu, hw⟩ := c.node_reference_other h href hv
      simp only [hu]
      exact .ok .none

/-- A followed chain ends at corresponding nodes, or with the same cycle. -/
theorem agree_followReference (chain : List Text) (r : Text) (hr : c.known r)
    (hchain : ∀ s ∈ chain, c.known s) :
    Agree c.rename (Option.Rel c.node) (d.followReference chain r).result
      (d'.followReference (chain.map c.rename) (c.rename r)).result := by
  have hmem : c.rename r ∈ chain.map c.rename ↔ r ∈ chain := by
    constructor
    · intro h
      obtain ⟨s, hs, he⟩ := List.mem_map.mp h
      exact c.rename_injective (hchain s hs) hr he ▸ hs
    · exact List.mem_map_of_mem
  have hlonger : (chain ++ [r]).map c.rename = chain.map c.rename ++ [c.rename r] := by
    rw [List.map_append]
    rfl
  rw [result_followReference d, result_followReference d']
  by_cases hin : r ∈ chain
  · rw [if_pos hin, if_pos (hmem.mpr hin), ← hlonger]
    exact .error _
  · rw [if_neg hin, if_neg (mt hmem.mp hin), ← hlonger]
    rcases option_rel_iff.mp (c.lookup hr) with ⟨ht, hu⟩ | ⟨t, u, ht, hu, htu⟩
    · simp only [ht, hu]
      exact .ok .none
    · simp only [ht, hu, c.node_isNull htu]
      split
      · exact .ok .none
      · have hall : ∀ s ∈ chain ++ [r], c.known s := by
          intro s hs
          rcases List.mem_append.mp hs with hs | hs
          · exact hchain s hs
          · exact List.mem_singleton.mp hs ▸ hr
        exact c.agree_followFrom htu fun s hs hknown => agree_followReference _ s hknown hall
termination_by d.unfollowed chain r
decreasing_by
  exact unfollowed_lt hin (texts_lookup_subset ht (mem_texts_of_reference? hs))

theorem agree_follow (h : c.node t u) :
    Agree c.rename (Option.Rel c.node) (d.follow t).result (d'.follow u).result := by
  rw [result_follow, result_follow]
  exact c.agree_followFrom h fun r _ hr => c.agree_followReference [] r hr (by simp)

theorem agree_followObject (h : c.node t u) :
    Agree c.rename (Option.Rel c.node) (d.followObject t).result (d'.followObject u).result := by
  unfold followObject
  rw [Traced.result_bind, Traced.result_bind]
  apply (c.agree_follow h).bind
  intro found found' hfound
  refine .ok ?_
  cases hfound with
  | none => exact .none
  | some hnode =>
    rw [Option.filter_some, Option.filter_some, c.node_isObject hnode]
    split
    · exact .some hnode
    · exact .none

end References

end Correspondence
end ApiScaffold.Document
