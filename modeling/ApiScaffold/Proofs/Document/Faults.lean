import ApiScaffold.Proofs.Document.Members
import ApiScaffold.Proofs.Document.Specification
import ApiScaffold.Proofs.Document.Steps
import ApiScaffold.Proofs.Tree.Within
import Mathlib.Data.List.Forall2

namespace ApiScaffold
open ApiScaffold.Tree

namespace Document
variable {α β : Type} {p q : Fault → Prop} {x : Except Fault α}

/-- The faults that a run can end with. -/
def FailsBy (p : Fault → Prop) (x : Except Fault α) : Prop :=
  ∀ e, x = .error e → p e

theorem failsBy_ok (a : α) : FailsBy p (.ok a : Except Fault α) := by
  intro e h
  cases h

theorem FailsBy.mono (h : FailsBy p x) (hpq : ∀ e, p e → q e) : FailsBy q x :=
  fun e he => hpq e (h e he)

theorem FailsBy.bind {f : α → Except Fault β} (hx : FailsBy p x)
    (hf : ∀ a, x = .ok a → FailsBy p (f a)) : FailsBy p (x >>= f) := by
  intro e h
  rcases error_of_bind h with he | ⟨a, ha, he⟩
  · exact hx e he
  · exact hf a ha e he

theorem FailsBy.mapM {f : α → Except Fault β} {l : List α} (h : ∀ a ∈ l, FailsBy p (f a)) :
    FailsBy p (l.mapM f) := by
  intro e he
  obtain ⟨a, ha, hfa⟩ := error_of_mapM he
  exact h a ha e hfa

/-- A run over a list gives what each of its items gives. -/
theorem mapM_eq_ok_iff_forall₂ {f : α → Except Fault β} {l : List α} {bs : List β} :
    l.mapM f = .ok bs ↔ List.Forall₂ (fun a b => f a = .ok b) l bs := by
  constructor
  · intro h
    induction l generalizing bs with
    | nil =>
      cases h
      exact .nil
    | cons a rest ih =>
      rw [List.mapM_cons] at h
      obtain ⟨b, hb, h⟩ := ok_of_bind h
      obtain ⟨more, hmore, h⟩ := ok_of_bind h
      cases h
      exact .cons hb (ih hmore)
  · intro h
    induction h with
    | nil => rfl
    | cons ha _ ih =>
      rw [List.mapM_cons, ha, ih]
      rfl

/-- What comes out of a run over a list comes from one of its items. -/
theorem exists_of_mem_mapM {f : α → Except Fault β} {l : List α} {bs : List β}
    (h : l.mapM f = .ok bs) {b : β} (hb : b ∈ bs) : ∃ a ∈ l, f a = .ok b := by
  rw [mapM_eq_ok_iff_forall₂] at h
  induction h with
  | nil => cases hb
  | cons ha _ ih =>
    rcases List.mem_cons.mp hb with rfl | hb
    · exact ⟨_, List.mem_cons_self, ha⟩
    · obtain ⟨a, hm, hf⟩ := ih hb
      exact ⟨a, List.mem_cons_of_mem _ hm, hf⟩

/-- A run over a list keeps what each step says about its item. -/
theorem map_eq_map_of_mapM {γ : Type} {f : α → Except Fault β} {l : List α} {bs : List β}
    {g : β → γ} {k : α → γ} (h : l.mapM f = .ok bs) (hf : ∀ a b, f a = .ok b → g b = k a) :
    bs.map g = l.map k := by
  have hall : List.Forall₂ (fun a b => k a = g b) l bs :=
    (mapM_eq_ok_iff_forall₂.mp h).imp fun a b hb => (hf a b hb).symm
  rw [eq_comm, ← List.forall₂_eq_eq_eq, List.forall₂_map_left_iff, List.forall₂_map_right_iff]
  exact hall

theorem eq_map_of_mapM {f : α → Except Fault β} {l : List α} {bs : List β} {k : α → β}
    (h : l.mapM f = .ok bs) (hf : ∀ a b, f a = .ok b → b = k a) : bs = l.map k := by
  simpa using map_eq_map_of_mapM (g := id) h hf

theorem FailsBy.exists_ok (h : FailsBy (fun _ => False) x) : ∃ a, x = .ok a := by
  cases x with
  | ok a => exact ⟨a, rfl⟩
  | error e => exact (h e rfl).elim

theorem failsBy_nameOf (h : p .numberTooLong) (t : Tree) : FailsBy p (nameOf t) := by
  intro e he
  rwa [eq_numberTooLong_of_nameOf he]

/-- What a value needs so that reading it ends by such faults only: no label, unless to be endless
is one of them, no array of itself, unless looping is one, and names for its keys and for the
properties that it requires. -/
structure Spares (p : Fault → Prop) (t : Tree) : Prop where
  label : p .endless ∨ label? t = none
  arrays : p .looping ∨ ¬ ArrayOfItself t
  key : ∀ {entries : Entries}, t.map? = some entries → ∀ e ∈ entries, FailsBy p (nameOf e.1)
  required : ∀ item ∈ (t.get "required").items, FailsBy p (nameOf item)

theorem spares_null : Spares p .null := by
  refine ⟨.inr rfl, .inr (not_arrayOfItself_of_not_isArray (by decide)), ?_, ?_⟩
  · intro entries h
    cases h
  · intro item h
    cases h

/-- Every value is read so if these are faults of the kind, and to be looping where it has a
reason. -/
theorem throughout_spares {t : Tree} (hn : p .numberTooLong) (he : p .endless)
    (hl : ∀ s, Within s t → ArrayOfItself s → p .looping) : Throughout (Spares p) t := by
  intro s hs
  have harrays : p .looping ∨ ¬ ArrayOfItself s := or_iff_not_imp_right.mpr fun h =>
    hl s hs (not_not.mp h)
  exact ⟨.inl he, harrays, fun _ _ _ => failsBy_nameOf hn _, fun _ _ => failsBy_nameOf hn _⟩

section Types
variable {t : Tree} {inside : Tree → Except Fault DataType}

theorem failsBy_declaredType (h : Throughout (Spares p) t)
    (hinside : ∀ s, sizeOf s < sizeOf t → Throughout (Spares p) s → FailsBy p (inside s)) :
    FailsBy p (declaredType inside t) := by
  unfold declaredType
  split
  · split
    · rename_i items hitems
      apply (hinside items (Tree.sizeOf_get?_lt hitems) (h.get? hitems)).bind
      intro type _
      exact failsBy_ok _
    · exact failsBy_ok _
  · split
    · split
      · rename_i properties hproperties
        have hobject : Throughout (Spares p) (t.get "properties") := h.get spares_null
        have hfields : FailsBy p (properties.mapM (typedField inside)) := by
          apply FailsBy.mapM
          intro e he
          apply (hobject.here.key hproperties e he).bind
          intro name _
          have hsize := Tree.sizeOf_get_value_lt hproperties he
          apply (hinside e.2 hsize (hobject.value hproperties he)).bind
          intro type _
          exact failsBy_ok _
        apply hfields.bind
        intro fields _
        exact failsBy_ok _
      · exact failsBy_ok _
    · exact failsBy_ok _

theorem failsBy_dataTypeStep (h : Throughout (Spares p) t)
    (hinside : ∀ s, sizeOf s < sizeOf t → Throughout (Spares p) s → FailsBy p (inside s)) :
    FailsBy p (dataTypeStep inside t) := by
  unfold dataTypeStep
  split
  · exact failsBy_ok _
  · split
    · rename_i part hpart
      have hmem : part ∈ (t.get "allOf").items := by simp [hpart]
      have hparts : Throughout (Spares p) (t.get "allOf") := h.get spares_null
      exact hinside part (Tree.sizeOf_get_items_lt hmem) (hparts.item hmem)
    · exact failsBy_declaredType h hinside

theorem failsBy_dataTypeWithin (around : List Nat) (t : Tree) (h : Throughout (Spares p) t) :
    FailsBy p (dataTypeWithin around t) := by
  cases hl : label? t with
  | none =>
    rw [dataTypeWithin_eq_step hl]
    exact failsBy_dataTypeStep h fun s _ hs => failsBy_dataTypeWithin around s hs
  | some labelled =>
    obtain ⟨label, s⟩ := labelled
    rw [label?_eq_some hl, dataTypeWithin_recurring]
    split
    · intro e he
      cases he
      exact h.here.label.resolve_right (by simp [hl])
    · exact failsBy_dataTypeWithin _ s (h.within (label?_eq_some hl ▸ .label (.self s)))
termination_by sizeOf t
decreasing_by
  · assumption
  · exact sizeOf_label_lt hl

theorem failsBy_dataType (h : Throughout (Spares p) t) : FailsBy p (dataType t) :=
  failsBy_dataTypeWithin [] t h

end Types

section Bodies

theorem failsBy_bodyTypeName {t : Tree} (h : Spares p t) (function role : Text) :
    FailsBy p (bodyTypeName t function role) := by
  by_cases hself : ArrayOfItself t
  · rw [bodyTypeName_of_itself hself]
    intro e he
    cases he
    exact h.arrays.resolve_right (not_not_intro hself)
  · rw [bodyTypeName_eq hself]
    exact failsBy_ok _

theorem failsBy_mapM_bodyTypeName {schema : Option Tree} (h : ∀ s, schema = some s → Spares p s)
    (function role : Text) :
    FailsBy p (schema.mapM fun s => bodyTypeName s function role) := by
  cases schema with
  | none => exact failsBy_ok _
  | some s =>
    apply (failsBy_bodyTypeName (h s rfl) function role).bind
    intro name _
    exact failsBy_ok _

end Bodies

section Named
variable {entries : Entries}

theorem failsBy_mapM_nameOf {f : Tree × Tree → Text → β}
    (h : ∀ e ∈ entries, FailsBy p (nameOf e.1)) :
    FailsBy p (entries.mapM fun e => do .ok (f e (← nameOf e.1))) := by
  apply FailsBy.mapM
  intro e he
  apply (h e he).bind
  intro name _
  exact failsBy_ok _

theorem failsBy_named (h : ∀ e ∈ entries, FailsBy p (nameOf e.1)) :
    FailsBy p (named entries) := by
  apply (failsBy_mapM_nameOf (f := fun e name => (name, e.2)) h).bind
  intro names _
  exact failsBy_ok _

theorem failsBy_jsonSchema {t : Tree} (h : Throughout (Spares p) t) :
    FailsBy p (jsonSchema t) := by
  unfold jsonSchema
  split
  · exact failsBy_ok _
  · rename_i entries hentries
    apply (failsBy_mapM_nameOf (f := fun e name => (mediaType name, e.2))
      (h.here.key hentries)).bind
    intro names _
    exact failsBy_ok _

theorem failsBy_own {t : Tree} (h : Throughout (Spares p) t) : FailsBy p (Members.own t) := by
  have hobject : Throughout (Spares p) (t.get "properties") := h.get spares_null
  have hkeys : ∀ e ∈ (t.get "properties").map?.getD [], FailsBy p (nameOf e.1) := by
    intro e he
    cases hm : (t.get "properties").map? with
    | none => simp [hm] at he
    | some entries => exact hobject.here.key hm e (by simpa [hm] using he)
  apply (failsBy_named hkeys).bind
  intro properties _
  apply (FailsBy.mapM h.here.required).bind
  intro required _
  exact failsBy_ok _

end Named

section Parameters
variable {t : Tree}

theorem failsBy_parameter? (h : Throughout (Spares p) t) : FailsBy p (parameter? t) := by
  have htype : FailsBy p (parameterType t) := by
    unfold parameterType
    split
    · exact failsBy_dataType (h.get? ‹_›)
    · split
      · exact failsBy_dataType h
      · exact failsBy_ok _
  unfold parameter?
  dsimp only
  split
  · apply htype.bind
    intro type _
    exact failsBy_ok _
  · exact failsBy_ok _

theorem failsBy_parameters {raws : List Tree} (h : ∀ raw ∈ raws, Throughout (Spares p) raw) :
    FailsBy p (parameters raws) := by
  have hmap : FailsBy p (raws.mapM parameter?) :=
    FailsBy.mapM fun raw hraw => failsBy_parameter? (h raw hraw)
  apply hmap.bind
  intro found _
  exact failsBy_ok _

end Parameters

end Document
end ApiScaffold
