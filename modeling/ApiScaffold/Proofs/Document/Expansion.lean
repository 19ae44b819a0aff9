import ApiScaffold.Document.Schema
import Mathlib.Logic.Relation

namespace ApiScaffold.Document

/-- Whether the document is rejected. The other faults are those of a number that is too long and
of a value inside itself. -/
def Fault.isRejection : Fault → Bool
  | .numberTooLong | .endless | .looping => false
  | _ => true

def Rejects (o : Except Fault Members) : Prop :=
  ∃ e, o = .error e ∧ e.isRejection = true

/-- A schema, with the labels of the values around it. -/
structure Site where
  around : List Nat
  schema : Tree

/-- The parts of a composition. -/
def Site.parts (s : Site) : List Tree :=
  (s.schema.get "allOf").items

def Site.part (s : Site) (t : Tree) : Site :=
  ⟨s.around, t⟩

/-- How a schema expands. It has no members when its reference is no text, or leads nowhere. -/
inductive Form where
  | nothing
  | target (reference : Text) (t : Tree)
  | again
  | inside (label : Nat) (t : Tree)
  | composed

def form (d : Document) (s : Site) : Form :=
  match reference? s.schema with
  | some (.str r) =>
    match d.lookup r with
    | some t => .target r t
    | none => .nothing
  | some _ => .nothing
  | none =>
    match s.schema with
    | .recurring label t => if label ∈ s.around then .again else .inside label t
    | _ => .composed

/-- What a form tells about the schema that has it. -/
inductive HasForm (d : Document) (s : Site) : Form → Prop
  | nothing {v : Tree} (hr : reference? s.schema = some v)
      (hv : ∀ r, v = .str r → d.lookup r = none) : HasForm d s .nothing
  | target {r : Text} {t : Tree} (hr : reference? s.schema = some (.str r))
      (hl : d.lookup r = some t) : HasForm d s (.target r t)
  | again {label : Nat} {t : Tree} (hr : reference? s.schema = none)
      (hs : s.schema = .recurring label t) (hl : label ∈ s.around) : HasForm d s .again
  | inside {label : Nat} {t : Tree} (hr : reference? s.schema = none)
      (hs : s.schema = .recurring label t) (hl : label ∉ s.around) : HasForm d s (.inside label t)
  | composed (hr : reference? s.schema = none)
      (hs : ∀ label t, s.schema ≠ .recurring label t) : HasForm d s .composed

/-- Adds the members that a schema declares itself. -/
def withOwn (t : Tree) (known : Members) : Except Fault Members := do
  .ok (known.join (← Members.own t))

/-- What the expansion of a schema comes to when no reference is watched. A derivation is finite, so
an expansion that goes on for ever comes to nothing. A value inside itself has a fault of its own,
whatever it refers to. -/
inductive Ends (d : Document) : Site → Except Fault Members → Prop
  | nothing {s : Site} (hf : d.form s = .nothing) : Ends d s (.ok .empty)
  | target {s : Site} {r : Text} {t : Tree} {o : Except Fault Members}
      (hf : d.form s = .target r t) (h : Ends d ⟨[], t⟩ o) : Ends d s o
  | again {s : Site} (hf : d.form s = .again) : Ends d s (.error .endless)
  | inside {s : Site} {label : Nat} {t : Tree} {o : Except Fault Members}
      (hf : d.form s = .inside label t) (h : Ends d ⟨label :: s.around, t⟩ o) : Ends d s o
  | composed {s : Site} {m : Tree → Members} (hf : d.form s = .composed)
      (h : ∀ t ∈ s.parts, Ends d (s.part t) (.ok (m t))) :
      Ends d s (withOwn s.schema ((s.parts.map m).foldl Members.join .empty))
  | failed {s : Site} {m : Tree → Members} {before after : List Tree} {t : Tree} {e : Fault}
      (hf : d.form s = .composed) (hp : s.parts = before ++ t :: after)
      (hb : ∀ b ∈ before, Ends d (s.part b) (.ok (m b))) (h : Ends d (s.part t) (.error e)) :
      Ends d s (.error e)

/-- Where an expansion goes next, and the reference it enters there. It gets to a part once the
parts before have passed. -/
inductive Next (d : Document) (passes : Site → Prop) : Site → List Text → Site → Prop
  | target {s : Site} {r : Text} {t : Tree} (hf : d.form s = .target r t) :
      Next d passes s [r] ⟨[], t⟩
  | inside {s : Site} {label : Nat} {t : Tree} (hf : d.form s = .inside label t) :
      Next d passes s [] ⟨label :: s.around, t⟩
  | part {s : Site} {before after : List Tree} {t : Tree} (hf : d.form s = .composed)
      (hp : s.parts = before ++ t :: after) (hb : ∀ b ∈ before, passes (s.part b)) :
      Next d passes s [] (s.part t)

/-- The paths of an expansion with the references that each is inside of, nearest first. -/
inductive Path (d : Document) (passes : Site → Prop) (start : Site) : List Text → Site → Prop
  | start : Path d passes start [] start
  | step {trail entered : List Text} {s next : Site} (h : Path d passes start trail s)
      (hn : Next d passes s entered next) : Path d passes start (entered ++ trail) next

/-- Some path comes back to a reference that it is inside of. -/
def Returns (d : Document) (passes : Site → Prop) (start : Site) : Prop :=
  ∃ trail s r, Path d passes start trail s ∧ reference? s.schema = some (.str r) ∧ r ∈ trail

/-- An expansion goes on behind a part that has members. -/
def Passes (d : Document) (s : Site) : Prop :=
  ∃ m, Ends d s (.ok m)

section Forms
variable {d : Document} {s : Site} {r : Text} {t : Tree} {o : Except Fault Members}

theorem form_of_reference (h : reference? s.schema = some (.str r)) :
    d.form s = match d.lookup r with
      | some t => .target r t
      | none => .nothing := by
  rw [form, h]

theorem form_of_not_text (h : reference? s.schema = some t) (ht : ∀ r, t ≠ .str r) :
    d.form s = .nothing := by
  rw [form, h]
  split <;> simp_all

theorem form_of_again {label : Nat} (h : reference? s.schema = none)
    (hs : s.schema = .recurring label t) (hl : label ∈ s.around) : d.form s = .again := by
  rw [form, h]
  simp [hs, hl]

theorem form_of_inside {label : Nat} (h : reference? s.schema = none)
    (hs : s.schema = .recurring label t) (hl : label ∉ s.around) :
    d.form s = .inside label t := by
  rw [form, h]
  simp [hs, hl]

theorem form_of_composed (h : reference? s.schema = none)
    (hs : ∀ label t, s.schema ≠ .recurring label t) : d.form s = .composed := by
  rw [form, h]
  split <;> simp_all

theorem hasForm {form : Form} (h : d.form s = form) : d.HasForm s form := by
  subst h
  cases hr : reference? s.schema with
  | none =>
    by_cases hs : ∃ label t, s.schema = .recurring label t
    · obtain ⟨label, t, hs⟩ := hs
      by_cases hl : label ∈ s.around
      · rw [form_of_again hr hs hl]
        exact .again hr hs hl
      · rw [form_of_inside hr hs hl]
        exact .inside hr hs hl
    · have hplain : ∀ label t, s.schema ≠ .recurring label t :=
        fun label t he => hs ⟨label, t, he⟩
      rw [form_of_composed hr hplain]
      exact .composed hr hplain
  | some v =>
    by_cases hv : ∃ r, v = .str r
    · obtain ⟨r, rfl⟩ := hv
      rw [form_of_reference hr]
      cases hl : d.lookup r with
      | none =>
        refine .nothing hr ?_
        rintro q ⟨⟩
        exact hl
      | some t => exact .target hr hl
    · have hother : ∀ r, v ≠ .str r := fun r he => hv ⟨r, he⟩
      rw [form_of_not_text hr hother]
      exact .nothing hr fun r he => absurd he (hother r)

theorem lookup_of_form (h : d.form s = .target r t) : d.lookup r = some t := by
  cases hasForm h with
  | target _ hl => exact hl

end Forms

section Outcome
variable {d : Document} {s : Site} {o o' : Except Fault Members}

/-- Two places in one list are one place, or one stands before the other. -/
theorem split_cases {α : Type} {before before' after after' : List α} {t t' : α}
    (h : before ++ t :: after = before' ++ t' :: after') :
    (before = before' ∧ t = t') ∨ t ∈ before' ∨ t' ∈ before := by
  rcases List.append_eq_append_iff.mp h with ⟨gap, hb, ht⟩ | ⟨gap, hb, ht⟩
  · cases gap with
    | nil => exact .inl ⟨by simpa using hb.symm, by simpa using (List.cons.inj ht).1⟩
    | cons u gap => exact .inr (.inl (by simp [hb, (List.cons.inj ht).1]))
  · cases gap with
    | nil => exact .inl ⟨by simpa using hb, by simpa using (List.cons.inj ht).1.symm⟩
    | cons u gap => exact .inr (.inr (by simp [hb, (List.cons.inj ht).1]))

/-- An expansion has one outcome. -/
theorem Ends.unique (h : Ends d s o) (h' : Ends d s o') : o = o' := by
  induction h generalizing o' with
  | nothing hf => cases h' <;> simp_all
  | target hf _ ih =>
    cases h' with
    | target hf' h' =>
      obtain ⟨-, rfl⟩ := Form.target.inj (hf.symm.trans hf')
      exact ih h'
    | _ => simp_all
  | again hf => cases h' <;> simp_all
  | inside hf _ ih =>
    cases h' with
    | inside hf' h' =>
      obtain ⟨rfl, rfl⟩ := Form.inside.inj (hf.symm.trans hf')
      exact ih h'
    | _ => simp_all
  | @composed s m hf _ ih =>
    cases h' with
    | @composed _ m' hf' h' =>
      have hm : s.parts.map m = s.parts.map m' :=
        List.map_congr_left fun t ht => Except.ok.inj (ih t ht (h' t ht))
      rw [hm]
    | @failed _ m' before after t e hf' hp hb h' =>
      have ht : t ∈ s.parts := by simp [hp]
      cases ih t ht h'
    | _ => simp_all
  | @failed s m before after t e hf hp hb _ ihb ih =>
    cases h' with
    | @composed _ m' hf' h' =>
      have ht : t ∈ s.parts := by simp [hp]
      cases ih (h' t ht)
    | @failed _ m' before' after' t' e' hf' hp' hb' h' =>
      rcases split_cases (hp.symm.trans hp') with ⟨-, rfl⟩ | ht | ht
      · exact ih h'
      · cases ih (hb' t ht)
      · cases ihb t' ht h'
    | _ => simp_all

/-- A step of the expansion whatever it enters. -/
def Step (d : Document) (s next : Site) : Prop :=
  ∃ entered, Next d (Passes d) s entered next

/-- What has an outcome can be stepped through only finitely often. -/
theorem Ends.acc (h : Ends d s o) : Acc (fun next s => Step d s next) s := by
  induction h with
  | nothing hf =>
    constructor
    rintro _ ⟨_, hn⟩
    cases hn <;> simp_all
  | target hf _ ih =>
    constructor
    rintro _ ⟨_, hn⟩
    cases hn with
    | target hf' =>
      obtain ⟨-, rfl⟩ := Form.target.inj (hf.symm.trans hf')
      exact ih
    | _ => simp_all
  | again hf =>
    constructor
    rintro _ ⟨_, hn⟩
    cases hn <;> simp_all
  | inside hf _ ih =>
    constructor
    rintro _ ⟨_, hn⟩
    cases hn with
    | inside hf' =>
      obtain ⟨rfl, rfl⟩ := Form.inside.inj (hf.symm.trans hf')
      exact ih
    | _ => simp_all
  | @composed s m hf _ ih =>
    constructor
    rintro _ ⟨_, hn⟩
    cases hn with
    | part hf' hp hb => exact ih _ (by simp [hp])
    | _ => simp_all
  | @failed s m before after t e hf hp hb h ihb ih =>
    constructor
    rintro _ ⟨_, hn⟩
    cases hn with
    | part hf' hp' hb' =>
      rcases split_cases (hp.symm.trans hp') with ⟨-, rfl⟩ | ht | ht
      · exact ih
      -- The part that failed does not pass, so no part behind it is reached.
      · obtain ⟨m', hm⟩ := hb' t ht
        cases h.unique hm
      · exact ihb _ ht
    | _ => simp_all

end Outcome

section Cycles
open Relation
variable {d : Document} {start s : Site} {trail : List Text} {r : Text}

theorem Next.mono {passes more : Site → Prop} {entered : List Text} {next : Site}
    (h : Next d passes s entered next) (hp : ∀ s, passes s → more s) :
    Next d more s entered next := by
  cases h with
  | target hf => exact .target hf
  | inside hf => exact .inside hf
  | part hf hs hb => exact .part hf hs fun b hm => hp _ (hb b hm)

theorem Returns.mono {passes more : Site → Prop} (h : Returns d passes start)
    (hp : ∀ s, passes s → more s) : Returns d more start := by
  obtain ⟨trail, s, r, hpath, hr⟩ := h
  refine ⟨trail, s, r, ?_, hr⟩
  clear hr
  induction hpath with
  | start => exact .start
  | step _ hn ih => exact ih.step (hn.mono hp)

theorem Path.steps (h : Path d (Passes d) start trail s) : ReflTransGen (Step d) start s := by
  induction h with
  | start => exact .refl
  | step _ hn ih => exact ih.tail ⟨_, hn⟩

/-- The path has gone through the target of every reference that it is inside of. -/
theorem Path.through_target (h : Path d (Passes d) start trail s) (hr : r ∈ trail) :
    ∃ t, d.lookup r = some t ∧ ReflTransGen (Step d) ⟨[], t⟩ s := by
  induction h with
  | start => cases hr
  | @step trail entered s next _ hn ih =>
    rcases List.mem_append.mp hr with hr | hr
    · cases hn with
      | target hf =>
        obtain rfl := List.mem_singleton.mp hr
        exact ⟨_, lookup_of_form hf, .refl⟩
      | inside => cases hr
      | part => cases hr
    · obtain ⟨t, hl, hs⟩ := ih hr
      exact ⟨t, hl, hs.tail ⟨_, hn⟩⟩

theorem not_cycle_of_acc {α : Type} {step : α → α → Prop} {a b : α}
    (h : Acc (fun next s => step s next) a) (hab : ReflTransGen step a b) : ¬ step b a := by
  induction h generalizing b with
  | intro a _ ih =>
    intro hba
    rcases hab.cases_head with rfl | ⟨c, hac, hcb⟩
    · exact ih a hba .refl hba
    · exact ih c hac (hcb.tail hba) hac

theorem acc_of_steps {α : Type} {step : α → α → Prop} {a b : α}
    (h : Acc (fun next s => step s next) a) (hab : ReflTransGen step a b) :
    Acc (fun next s => step s next) b := by
  induction hab with
  | refl => exact h
  | tail _ hbc ih => exact ih.inv hbc

/-- An expansion that comes back to a reference has no outcome. -/
theorem not_ends_of_returns (h : Returns d (Passes d) start) : ¬ ∃ o, Ends d start o := by
  rintro ⟨o, ho⟩
  obtain ⟨trail, s, r, hpath, hr, hm⟩ := h
  obtain ⟨t, hl, hsteps⟩ := hpath.through_target hm
  have hform : d.form s = .target r t := by rw [form_of_reference hr, hl]
  have hback : Step d s ⟨[], t⟩ := ⟨[r], .target hform⟩
  have hacc := acc_of_steps ho.acc (hpath.steps.tail hback)
  exact not_cycle_of_acc hacc hsteps hback

theorem passes_of_next {next : Site} {entered : List Text} (h : Passes d s)
    (hn : Next d (fun _ => True) s entered next) :
    Passes d next ∧ Next d (Passes d) s entered next := by
  obtain ⟨m, hm⟩ := h
  generalize ho : Except.ok m = o at hm
  cases hn with
  | target hf =>
    refine ⟨?_, .target hf⟩
    cases hm with
    | target hf' h =>
      obtain ⟨-, rfl⟩ := Form.target.inj (hf.symm.trans hf')
      exact ⟨m, ho ▸ h⟩
    | _ => simp_all
  | inside hf =>
    refine ⟨?_, .inside hf⟩
    cases hm with
    | inside hf' h =>
      obtain ⟨rfl, rfl⟩ := Form.inside.inj (hf.symm.trans hf')
      exact ⟨m, ho ▸ h⟩
    | _ => simp_all
  | part hf hp hb =>
    have hparts : ∀ t ∈ s.parts, Passes d (s.part t) := by
      cases hm with
      | composed hf' h => exact fun t ht => ⟨_, h t ht⟩
      | failed => cases ho
      | _ => simp_all
    exact ⟨hparts _ (by simp [hp]), .part hf hp fun b hb => hparts _ (by simp [hp, hb])⟩

/-- Where an expansion passes, all of its paths can be gone. -/
theorem Path.passes (h : Path d (fun _ => True) start trail s) (hs : Passes d start) :
    Passes d s ∧ Path d (Passes d) start trail s := by
  induction h with
  | start => exact ⟨hs, .start⟩
  | step _ hn ih =>
    obtain ⟨hpass, hpath⟩ := ih
    obtain ⟨hnext, hn⟩ := passes_of_next hpass hn
    exact ⟨hnext, hpath.step hn⟩

end Cycles

end ApiScaffold.Document
