import ApiScaffold.Proofs.Document.Faults
import Mathlib.Data.List.Forall2
import Mathlib.Data.Option.Defs

namespace ApiScaffold

/-- Related options are both empty or hold related values. -/
theorem option_rel_iff {α β : Type} {R : α → β → Prop} {o : Option α} {o' : Option β} :
    Option.Rel R o o' ↔
      (o = none ∧ o' = none) ∨ ∃ a b, o = some a ∧ o' = some b ∧ R a b := by
  constructor
  · intro h
    cases h with
    | none => exact .inl ⟨rfl, rfl⟩
    | some h => exact .inr ⟨_, _, rfl, rfl, h⟩
  · rintro (⟨rfl, rfl⟩ | ⟨a, b, rfl, rfl, h⟩)
    · exact .none
    · exact .some h

/-- Related members of two lists may be related otherwise. -/
theorem forall₂_imp_of_mem {α β : Type} {R S : α → β → Prop} {l : List α} {l' : List β}
    (h : List.Forall₂ R l l') (hRS : ∀ a ∈ l, ∀ b ∈ l', R a b → S a b) :
    List.Forall₂ S l l' := by
  rw [List.forall₂_iff_zip] at h ⊢
  refine ⟨h.1, fun hm => ?_⟩
  obtain ⟨ha, hb⟩ := List.of_mem_zip hm
  exact hRS _ ha _ hb (h.2 hm)

namespace Assoc
variable {α β : Type} {R : α → β → Prop} {key : Text} {a : α} {b : β}

/-- The same keys in the same order, with values that are related. -/
def Related (R : α → β → Prop) : Assoc α → Assoc β → Prop :=
  List.Forall₂ fun e e' => e.1 = e'.1 ∧ R e.2 e'.2

variable {m : Assoc α} {m' : Assoc β}

theorem Related.put (h : Related R m m') (hab : R a b) :
    Related R (m.put key a) (m'.put key b) := by
  induction h with
  | nil => exact .cons ⟨rfl, hab⟩ .nil
  | @cons e e' rest rest' he hrest ih =>
    obtain ⟨k, v⟩ := e
    obtain ⟨k', v'⟩ := e'
    obtain ⟨rfl, hv⟩ := he
    simp only [Assoc.put]
    split
    · exact .cons ⟨rfl, hab⟩ hrest
    · exact .cons ⟨rfl, hv⟩ ih

theorem Related.putAll {new : Assoc α} {new' : Assoc β} (h : Related R m m')
    (hnew : Related R new new') : Related R (m.putAll new) (m'.putAll new') := by
  induction hnew generalizing m m' with
  | nil => exact h
  | @cons e e' rest rest' he _ ih =>
    obtain ⟨k, v⟩ := e
    obtain ⟨k', v'⟩ := e'
    obtain ⟨rfl, hv⟩ := he
    exact ih (h.put hv)

theorem Related.ofList (h : Related R m m') : Related R (Assoc.ofList m) (Assoc.ofList m') :=
  Related.putAll .nil h

theorem Related.get? (h : Related R m m') (key : Text) :
    Option.Rel R (m.get? key) (m'.get? key) := by
  induction h with
  | nil => exact .none
  | @cons e e' rest rest' he _ ih =>
    obtain ⟨k, v⟩ := e
    obtain ⟨k', v'⟩ := e'
    obtain ⟨rfl, hv⟩ := he
    simp only [Assoc.get?]
    split
    · exact .some hv
    · exact ih

theorem Related.values (h : Related R m m') :
    List.Forall₂ R (m.map (·.2)) (m'.map (·.2)) := by
  rw [List.forall₂_map_left_iff, List.forall₂_map_right_iff]
  exact h.imp fun _ _ he => he.2

/-- What is found by its key alone. -/
theorem Related.find? {p : Text → Bool} (h : Related R m m') :
    Option.Rel R ((m.find? fun e => p e.1).map (·.2)) ((m'.find? fun e => p e.1).map (·.2)) := by
  induction h with
  | nil => exact .none
  | @cons e e' rest rest' he _ ih =>
    obtain ⟨k, v⟩ := e
    obtain ⟨k', v'⟩ := e'
    obtain ⟨rfl, hv⟩ := he
    simp only [List.find?_cons]
    cases p k with
    | true => exact .some hv
    | false => exact ih

end Assoc

namespace Document

/-- The fault with other references in it. -/
def Fault.renamed (rename : Text → Text) : Fault → Fault
  | .referenceCycle chain => .referenceCycle (chain.map rename)
  | .expansionCycle r => .expansionCycle (rename r)
  | e => e

/-- Two runs that end alike: with related results, or with one fault, up to its references. -/
inductive Agree {α β : Type} (rename : Text → Text) (R : α → β → Prop) :
    Except Fault α → Except Fault β → Prop
  | ok {a : α} {b : β} (h : R a b) : Agree rename R (.ok a) (.ok b)
  | error (e : Fault) : Agree rename R (.error e) (.error (e.renamed rename))

section Agreement
variable {α β γ δ : Type} {rename : Text → Text} {R : α → β → Prop} {S : γ → δ → Prop}
  {x : Except Fault α} {y : Except Fault β}

theorem Agree.bind {f : α → Except Fault γ} {g : β → Except Fault δ} (h : Agree rename R x y)
    (hfg : ∀ a b, R a b → Agree rename S (f a) (g b)) :
    Agree rename S (x >>= f) (y >>= g) := by
  cases h with
  | ok h => exact hfg _ _ h
  | error e => exact .error e

theorem Agree.mono {Q : α → β → Prop} (h : Agree rename R x y) (hQ : ∀ a b, R a b → Q a b) :
    Agree rename Q x y := by
  cases h with
  | ok h => exact .ok (hQ _ _ h)
  | error e => exact .error e

theorem Agree.mapM {f : α → Except Fault γ} {g : β → Except Fault δ} {as : List α} {bs : List β}
    (h : List.Forall₂ R as bs) (hfg : ∀ a b, R a b → Agree rename S (f a) (g b)) :
    Agree rename (List.Forall₂ S) (as.mapM f) (bs.mapM g) := by
  induction h with
  | nil => exact .ok .nil
  | cons hab _ ih =>
    rw [List.mapM_cons, List.mapM_cons]
    apply (hfg _ _ hab).bind
    intro c d hcd
    apply ih.bind
    intro cs ds hrest
    exact .ok (.cons hcd hrest)

theorem agree_eq_iff {y : Except Fault α} :
    Agree rename Eq x y ↔ y = x.mapError (Fault.renamed rename) := by
  constructor
  · intro h
    cases h with
    | ok h => rw [h]; rfl
    | error e => rfl
  · rintro rfl
    cases x with
    | ok a => exact .ok rfl
    | error e => exact .error e

/-- A fault that is no rejection holds no references. -/
theorem renamed_of_not_isRejection {e : Fault} (h : e.isRejection = false) :
    e.renamed rename = e := by
  cases e <;> first | rfl | cases h

theorem isRejection_renamed (e : Fault) : (e.renamed rename).isRejection = e.isRejection := by
  cases e <;> rfl

theorem agree_of_failsBy (h : FailsBy (·.isRejection = false) x) : Agree rename Eq x x := by
  cases x with
  | ok a => exact .ok rfl
  | error e =>
    have hfault : Agree rename (@Eq α) (.error e) (.error (e.renamed rename)) := .error e
    rwa [renamed_of_not_isRejection (h e rfl)] at hfault

theorem agree_nameOf (t : Tree) : Agree rename Eq (nameOf t) (nameOf t) :=
  agree_of_failsBy (failsBy_nameOf (p := (·.isRejection = false)) rfl t)

theorem Agree.cases (h : Agree rename R x y) :
    (∃ a b, x = .ok a ∧ y = .ok b ∧ R a b) ∨
      ∃ e : Fault, x = .error e ∧ y = .error (e.renamed rename) := by
  cases h with
  | ok h => exact .inl ⟨_, _, rfl, rfl, h⟩
  | error e => exact .inr ⟨e, rfl, rfl⟩

end Agreement

end Document
end ApiScaffold
