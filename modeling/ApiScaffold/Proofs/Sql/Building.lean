import ApiScaffold.Proofs.Sql.Construction

namespace ApiScaffold
open Text Identifier

namespace Sql

section Slots

/-- The nodes that a slot hands over. -/
inductive Slot.Holds : Slot → Node → Prop
  | built (n : Node) : Holds (.built n) n
  | several {slots : List Slot} {slot : Slot} {n : Node} (h : slot ∈ slots) (inner : slot.Holds n) :
      Holds (.several slots) n

/-- A node that passed every check of its builder, made of nodes that did. -/
inductive Built : Node → Prop
  | of {fields : Fields} {form : Form} {n : Node}
      (parts : ∀ e ∈ fields, ∀ m, e.2.Holds m → Built m)
      (check : Node.check fields form = .valid n) : Built n

namespace Slot
variable {α : Type} {P : α → Prop} {slot : Slot} {fields : Fields} {name s : Text} {a : α}
  {check : Slot → Checked α}

/-- Only sound nodes are handed over. -/
def IsSound (slot : Slot) : Prop :=
  ∀ n, slot.Holds n → n.isSound = true

theorem isSound_plain (t : Tree) : IsSound (.plain t) := by
  intro n h
  cases h

theorem isSound_of_mem {slots : List Slot} (h : IsSound (.several slots)) (hs : slot ∈ slots) :
    slot.IsSound :=
  fun n hn => h n (.several hs hn)

theorem accepts_of_identifier (h : identifier slot = .valid s) : accepts s = true := by
  unfold identifier testedText at h
  split at h
  · split at h
    · rename_i hs
      cases h
      exact hs
    · cases h
  · cases h

theorem acceptsType_of_sqlType (h : sqlType slot = .valid s) : acceptsType s = true := by
  unfold sqlType testedText at h
  split at h
  · split at h
    · rename_i hs
      cases h
      exact hs
    · cases h
  · cases h

/-- What holds of the default and of all that is checked holds of the value of a field. -/
theorem of_field {default : Option α} (hf : ∀ e ∈ fields, e.2.IsSound)
    (hc : ∀ slot, slot.IsSound → ∀ a, check slot = .valid a → P a) (hd : ∀ a ∈ default, P a)
    (h : field fields name default check = .valid a) : P a := by
  unfold field at h
  split at h
  · rename_i key found hfind
    exact hc found (hf _ (List.mem_of_find?_eq_some hfind)) a (Checked.valid_of_under h)
  · cases h
    exact hd _ rfl
  · cases h

theorem of_eachFrom {n : Nat} {slots : List Slot} {as : List α}
    (hs : ∀ slot ∈ slots, slot.IsSound)
    (hc : ∀ slot, slot.IsSound → ∀ a, check slot = .valid a → P a)
    (h : eachFrom check n slots = .valid as) : ∀ a ∈ as, P a := by
  induction slots generalizing n as with
  | nil =>
    cases h
    simp
  | cons slot slots ih =>
    obtain ⟨_, rest, hmap, hrest, rfl⟩ := Checked.valid_of_seq h
    obtain ⟨first, hfirst, rfl⟩ := Checked.valid_of_map hmap
    refine List.forall_mem_cons.mpr ⟨?_, ?_⟩
    · exact hc slot (hs slot List.mem_cons_self) first (Checked.valid_of_under hfirst)
    · exact ih (fun s hm => hs s (List.mem_cons_of_mem _ hm)) hrest

theorem of_each {as : List α} (hs : slot.IsSound)
    (hc : ∀ slot, slot.IsSound → ∀ a, check slot = .valid a → P a)
    (h : each check slot = .valid as) : ∀ a ∈ as, P a := by
  unfold each at h
  split at h
  · exact of_eachFrom (fun s hm => isSound_of_mem hs hm) hc h
  · refine of_eachFrom (fun s hm => ?_) hc h
    obtain ⟨t, -, rfl⟩ := List.mem_map.mp hm
    exact isSound_plain t
  · cases h

theorem of_object {node? : Node → Option α} {check : Fields → Checked α} (hs : slot.IsSound)
    (hn : ∀ n a, node? n = some a → n.isSound = true → P a)
    (hc : ∀ fields : Fields, (∀ e ∈ fields, e.2.IsSound) → ∀ a, check fields = .valid a → P a)
    (h : object node? check slot = .valid a) : P a := by
  unfold object at h
  split at h
  · rename_i n
    split at h
    · rename_i b hb
      cases h
      exact hn n _ hb (hs n (.built n))
    · cases h
  · refine hc _ (fun e he => ?_) a h
    obtain ⟨e, -, rfl⟩ := List.mem_map.mp he
    exact isSound_plain _
  · cases h

end Slot

section Checks
open Slot Checked
variable {fields : Fields}

/-- Fields that hand over sound nodes only. -/
def Fields.IsSound (fields : Fields) : Prop :=
  ∀ e ∈ fields, e.2.IsSound

theorem Fields.IsSound.identifier {name s : Text} (hf : Fields.IsSound fields)
    (h : field fields name none identifier = .valid s) : accepts s = true :=
  of_field (P := (accepts · = true)) hf (fun _ _ _ ha => accepts_of_identifier ha) (by simp) h

theorem Fields.IsSound.sqlType {name t : Text} {default : Option Text} (hf : Fields.IsSound fields)
    (hd : ∀ t ∈ default, acceptsType t = true)
    (h : field fields name default sqlType = .valid t) : acceptsType t = true :=
  of_field (P := (acceptsType · = true)) hf (fun _ _ _ ha => acceptsType_of_sqlType ha) hd h

/-- A list of nodes, left out or given. -/
theorem Fields.IsSound.each {α : Type} {P : α → Prop} {name : Text} {check : Slot → Checked α}
    {as : List α} (hf : Fields.IsSound fields)
    (hc : ∀ slot, slot.IsSound → ∀ a, check slot = .valid a → P a)
    (h : field fields name (some []) (Slot.each check) = .valid as) : ∀ a ∈ as, P a := by
  refine of_field (P := fun as => ∀ a ∈ as, P a) hf (fun slot hs as ha => of_each hs hc ha) ?_ h
  rintro as ⟨⟩
  simp

theorem Predicate.isSound_of_check {p : Predicate} (hf : Fields.IsSound fields)
    (h : Predicate.check fields = .valid p) : p.isSound = true := by
  obtain ⟨_, argument, hmap, ha, rfl⟩ := valid_of_seq h
  obtain ⟨column, hc, rfl⟩ := valid_of_map hmap
  exact Bool.and_eq_true_iff.mpr ⟨hf.identifier hc, hf.identifier ha⟩

theorem isSound_of_filterSlot {name : Text} {ps : List Predicate} (hf : Fields.IsSound fields)
    (h : field fields name (some []) filterSlot = .valid ps) : ps.all Predicate.isSound = true := by
  refine List.all_eq_true.mpr (hf.each (fun slot hs p hp => ?_) h)
  refine of_object (P := (Predicate.isSound · = true)) hs (fun n q hq hn => ?_)
    (fun fields hf q hq => Predicate.isSound_of_check hf hq) hp
  cases n <;> cases hq
  exact hn

theorem isSound_of_checkComment {s : Statement} (h : checkComment fields = .valid s) :
    s.isSound = true := by
  obtain ⟨text, -, rfl⟩ := valid_of_map h
  rfl

theorem isSound_of_checkSelect {s : Statement} (hf : Fields.IsSound fields)
    (h : checkSelect fields = .valid s) : s.isSound = true := by
  obtain ⟨_, filter, hmap, hfilter, rfl⟩ := valid_of_seq h
  obtain ⟨table, ht, rfl⟩ := valid_of_map hmap
  exact Bool.and_eq_true_iff.mpr ⟨hf.identifier ht, isSound_of_filterSlot hf hfilter⟩

theorem isSound_of_checkInsert {s : Statement} (hf : Fields.IsSound fields)
    (h : checkInsert fields = .valid s) : s.isSound = true := by
  obtain ⟨_, returning, hmap, -, rfl⟩ := valid_of_seq h
  obtain ⟨table, ht, rfl⟩ := valid_of_map hmap
  exact hf.identifier ht

theorem isSound_of_checkDelete {s : Statement} (hf : Fields.IsSound fields)
    (h : checkDelete fields = .valid s) : s.isSound = true := by
  obtain ⟨_, returning, hseq, -, rfl⟩ := valid_of_seq h
  obtain ⟨_, filter, hmap, hfilter, rfl⟩ := valid_of_seq hseq
  obtain ⟨table, ht, rfl⟩ := valid_of_map hmap
  exact Bool.and_eq_true_iff.mpr ⟨hf.identifier ht, isSound_of_filterSlot hf hfilter⟩

theorem isSound_of_shape {shape : Shape} {s : Statement} (hf : Fields.IsSound fields)
    (hm : shape ∈ shapes) (h : shape.check fields = .valid s) : s.isSound = true := by
  simp only [shapes, List.mem_cons, List.not_mem_nil, or_false] at hm
  rcases hm with rfl | rfl | rfl | rfl
  · exact isSound_of_checkComment h
  · exact isSound_of_checkSelect hf h
  · exact isSound_of_checkInsert hf h
  · exact isSound_of_checkDelete hf h

/-- A choice between two at a time picks one of all. -/
theorem foldl_mem_cons {α : Type} {f : α → α → α} (hf : ∀ a b, f a b = b ∨ f a b = a) (a : α)
    (as : List α) : as.foldl f a ∈ a :: as := by
  induction as generalizing a with
  | nil => exact List.mem_cons_self
  | cons b as ih =>
    rw [List.foldl_cons]
    rcases hf a b with he | he
    · rw [he]
      exact List.mem_cons_of_mem _ (ih b)
    · rw [he]
      exact (List.cons_subset_cons a (List.subset_cons_self b as)) (ih a)

theorem value?_eq_some {α : Type} {x : Checked α} {a : α} (h : x.value? = some a) :
    x = .valid a := by
  cases x <;> cases h
  rfl

/-- Whichever form data is taken for, it has passed the checks of that form. -/
theorem exists_shape_of_checkStatement {s : Statement} (h : checkStatement fields = .valid s) :
    ∃ shape ∈ shapes, shape.check fields = .valid s := by
  unfold checkStatement at h
  dsimp only at h
  split at h
  · cases h
  · rename_i first rest hfitting
    have hmem := foldl_mem_cons
      (f := fun best t : Nat × Statement => if best.1 < t.1 then t else best)
      (fun best t => by grind) first rest
    rw [← hfitting] at hmem
    obtain ⟨t, ht, hvalue⟩ := List.mem_filterMap.mp hmem
    obtain ⟨shape, hshape, rfl⟩ := List.mem_map.mp ht
    obtain ⟨found, hfound, he⟩ := Option.map_eq_some_iff.mp hvalue
    refine ⟨shape, hshape, ?_⟩
    cases h
    rw [← he]
    exact value?_eq_some hfound

theorem isSound_of_statementSlot {slot : Slot} {s : Statement} (hs : slot.IsSound)
    (h : statementSlot slot = .valid s) : s.isSound = true := by
  unfold statementSlot at h
  split at h
  · cases h
    exact hs _ (.built _)
  · obtain ⟨shape, hm, hcheck⟩ := exists_shape_of_checkStatement h
    refine isSound_of_shape (fun e he => ?_) hm hcheck
    obtain ⟨e, -, rfl⟩ := List.mem_map.mp he
    exact isSound_plain _
  · cases h

theorem ColumnDefinition.isSound_of_check {c : ColumnDefinition} (hf : Fields.IsSound fields)
    (h : ColumnDefinition.check fields = .valid c) : c.isSound = true := by
  obtain ⟨_, notNull, hseq, -, rfl⟩ := valid_of_seq h
  obtain ⟨_, type, hmap, ht, rfl⟩ := valid_of_seq hseq
  obtain ⟨name, hn, rfl⟩ := valid_of_map hmap
  exact Bool.and_eq_true_iff.mpr ⟨hf.identifier hn, hf.sqlType (by simp) ht⟩

theorem Typed.isSound_of_check {a : Typed} (hf : Fields.IsSound fields)
    (h : Typed.check fields = .valid a) : a.isSound = true := by
  obtain ⟨_, type, hmap, ht, rfl⟩ := valid_of_seq h
  obtain ⟨name, hn, rfl⟩ := valid_of_map hmap
  exact Bool.and_eq_true_iff.mpr ⟨hf.identifier hn, hf.sqlType (by simp) ht⟩

theorem TableDefinition.isSound_of_check {t : TableDefinition} (hf : Fields.IsSound fields)
    (h : TableDefinition.check fields = .valid t) : t.isSound = true := by
  obtain ⟨_, key, hseq, hk, rfl⟩ := valid_of_seq h
  obtain ⟨_, columns, hmap, hc, rfl⟩ := valid_of_seq hseq
  obtain ⟨name, hn, rfl⟩ := valid_of_map hmap
  simp only [TableDefinition.isSound, Bool.and_eq_true, List.all_eq_true]
  refine ⟨⟨hf.identifier hn, hf.each (fun slot hs c hc => ?_) hc⟩,
    hf.each (fun _ _ _ ha => accepts_of_identifier ha) hk⟩
  refine of_object (P := (ColumnDefinition.isSound · = true)) hs (fun n d hd hn => ?_)
    (fun fields hf d hd => ColumnDefinition.isSound_of_check hf hd) hc
  cases n <;> cases hd
  exact hn

theorem FunctionDefinition.isSound_of_check {f : FunctionDefinition} (hf : Fields.IsSound fields)
    (h : FunctionDefinition.check fields = .valid f) : f.isSound = true := by
  obtain ⟨_, body, hreturns, hb, rfl⟩ := valid_of_seq h
  obtain ⟨_, returns, harguments, hr, rfl⟩ := valid_of_seq hreturns
  obtain ⟨_, arguments, hmap, ha, rfl⟩ := valid_of_seq harguments
  obtain ⟨name, hn, rfl⟩ := valid_of_map hmap
  simp only [FunctionDefinition.isSound, Bool.and_eq_true, List.all_eq_true]
  refine ⟨⟨⟨hf.identifier hn, hf.each (fun slot hs a ha => ?_) ha⟩, hf.sqlType ?_ hr⟩,
    hf.each (fun slot hs s hs' => isSound_of_statementSlot hs hs') hb⟩
  · refine of_object (P := (Typed.isSound · = true)) hs (fun n b hb hn => ?_)
      (fun fields hf b hb => Typed.isSound_of_check hf hb) ha
    cases n <;> cases hb
    exact hn
  · rintro t ⟨⟩
    decide

/-- One step of building: sound parts make a sound node. -/
theorem Node.isSound_of_check {form : Form} {n : Node} (hf : Fields.IsSound fields)
    (h : Node.check fields form = .valid n) : n.isSound = true := by
  cases form <;> obtain ⟨a, ha, rfl⟩ := valid_of_map h
  case comment => exact isSound_of_checkComment ha
  case predicate => exact Predicate.isSound_of_check hf ha
  case select => exact isSound_of_checkSelect hf ha
  case insert => exact isSound_of_checkInsert hf ha
  case delete => exact isSound_of_checkDelete hf ha
  case column => exact ColumnDefinition.isSound_of_check hf ha
  case table => exact TableDefinition.isSound_of_check hf ha
  case argument => exact Typed.isSound_of_check hf ha
  case function => exact FunctionDefinition.isSound_of_check hf ha

theorem Built.isSound {n : Node} (h : Built n) : n.isSound = true := by
  induction h with
  | of parts check ih => exact Node.isSound_of_check (fun e he m hm => ih e he m hm) check

end Checks

section Completeness

theorem Slot.holds_nodes {α : Type} {node : α → Node} {as : List α} {m : Node}
    (h : (Slot.nodes node as).Holds m) : ∃ a ∈ as, m = node a := by
  cases h with
  | several hs inner =>
    obtain ⟨a, ha, rfl⟩ := List.mem_map.mp hs
    cases inner
    exact ⟨a, ha, rfl⟩

theorem built_of_parts {n : Node} (h : n.isSound = true)
    (parts : ∀ e ∈ n.fields, ∀ m, e.2.Holds m → Built m) : Built n :=
  .of parts (Node.check_fields h)

theorem built_predicate {p : Predicate} (h : p.isSound = true) : Built (.predicate p) := by
  refine built_of_parts h fun e he m hm => ?_
  simp only [Node.fields, List.mem_cons, List.not_mem_nil, or_false] at he
  rcases he with rfl | rfl <;> cases hm

theorem built_column {c : ColumnDefinition} (h : c.isSound = true) : Built (.column c) := by
  refine built_of_parts h fun e he m hm => ?_
  simp only [Node.fields, List.mem_cons, List.not_mem_nil, or_false] at he
  rcases he with rfl | rfl | rfl <;> cases hm

theorem built_argument {a : Typed} (h : a.isSound = true) : Built (.argument a) := by
  refine built_of_parts h fun e he m hm => ?_
  simp only [Node.fields, List.mem_cons, List.not_mem_nil, or_false] at he
  rcases he with rfl | rfl <;> cases hm

theorem built_filter {ps : List Predicate} {m : Node} (h : ps.all Predicate.isSound = true)
    (hm : (Slot.nodes .predicate ps).Holds m) : Built m := by
  obtain ⟨p, hp, rfl⟩ := Slot.holds_nodes hm
  exact built_predicate (List.all_eq_true.mp h p hp)

theorem built_statement {s : Statement} (h : s.isSound = true) : Built (.statement s) := by
  refine built_of_parts h fun e he m hm => ?_
  cases s <;> simp only [Node.fields, List.mem_cons, List.not_mem_nil, or_false] at he
  case comment text =>
    obtain rfl := he
    cases hm
  case select table filter =>
    rcases he with rfl | rfl
    · cases hm
    · exact built_filter (Bool.and_eq_true_iff.mp h).2 hm
  case insert table returning => rcases he with rfl | rfl <;> cases hm
  case delete table filter returning =>
    rcases he with rfl | rfl | rfl
    · cases hm
    · exact built_filter (Bool.and_eq_true_iff.mp h).2 hm
    · cases hm

theorem built_table {t : TableDefinition} (h : t.isSound = true) : Built (.table t) := by
  refine built_of_parts h fun e he m hm => ?_
  simp only [TableDefinition.isSound, Bool.and_eq_true, List.all_eq_true] at h
  simp only [Node.fields, List.mem_cons, List.not_mem_nil, or_false] at he
  rcases he with rfl | rfl | rfl
  · cases hm
  · obtain ⟨c, hc, rfl⟩ := Slot.holds_nodes hm
    exact built_column (h.1.2 c hc)
  · cases hm with
    | several hs inner =>
      obtain ⟨k, -, rfl⟩ := List.mem_map.mp hs
      cases inner

theorem built_function {f : FunctionDefinition} (h : f.isSound = true) : Built (.function f) := by
  refine built_of_parts h fun e he m hm => ?_
  simp only [FunctionDefinition.isSound, Bool.and_eq_true, List.all_eq_true] at h
  simp only [Node.fields, List.mem_cons, List.not_mem_nil, or_false] at he
  rcases he with rfl | rfl | rfl | rfl
  · cases hm
  · obtain ⟨a, ha, rfl⟩ := Slot.holds_nodes hm
    exact built_argument (h.1.1.2 a ha)
  · cases hm
  · obtain ⟨s, hs, rfl⟩ := Slot.holds_nodes hm
    exact built_statement (h.2 s hs)

theorem built_iff_isSound {n : Node} : Built n ↔ n.isSound = true := by
  refine ⟨Built.isSound, fun h => ?_⟩
  cases n with
  | predicate p => exact built_predicate h
  | statement s => exact built_statement h
  | column c => exact built_column h
  | table t => exact built_table h
  | argument a => exact built_argument h
  | function f => exact built_function h

end Completeness

end Slots

end Sql
end ApiScaffold
