import ApiScaffold.Proofs.DataType.Depth
import ApiScaffold.Spec.Dump
import ApiScaffold.Spec.Validation
import Mathlib.Data.List.Basic

namespace ApiScaffold

namespace Checked
variable {α β : Type} {ok ok' : Bool} {a : α} {c : Checked α}

/-- What the check of a dumped value may give: the value, if it is within the limit of depth, and
otherwise issues that tell of nothing else than depth. -/
inductive Restores : Bool → α → Checked α → Prop
  | whole (a : α) : Restores true a (valid a)
  | tooDeep (a : α) {issues : List Issue} (hne : issues ≠ [])
      (h : ∀ i ∈ issues, i.fault = .tooDeep) : Restores false a (invalid issues)

theorem restores_tooDeep (a : α) : Restores false a (issue .tooDeep) :=
  .tooDeep a (by simp) (by simp)

theorem Restores.eq_valid_iff (h : Restores ok a c) : c = valid a ↔ ok = true := by
  cases h <;> simp

theorem Restores.under (h : Restores ok a c) (step : Step) : Restores ok a (c.under step) := by
  cases h with
  | whole => exact .whole a
  | tooDeep _ hne h =>
    refine .tooDeep a (by simpa using hne) ?_
    intro i hi
    obtain ⟨j, hj, rfl⟩ := List.mem_map.mp hi
    exact h j hj

theorem Restores.map (h : Restores ok a c) (f : α → β) : Restores ok (f a) (f <$> c) := by
  cases h with
  | whole => exact .whole (f a)
  | tooDeep _ hne h => exact .tooDeep (f a) hne h

theorem Restores.seq {f : α → β} {g : Checked (α → β)} (hg : Restores ok f g)
    (h : Restores ok' a c) : Restores (ok && ok') (f a) (g <*> c) := by
  cases hg with
  | whole =>
    cases h with
    | whole => exact .whole (f a)
    | tooDeep _ hne h => exact .tooDeep (f a) hne h
  | tooDeep _ hne hg =>
    cases h with
    | whole => exact .tooDeep (f a) hne hg
    | tooDeep _ _ h =>
      refine .tooDeep (f a) (by simp [hne]) ?_
      intro i hi
      exact (List.mem_append.mp hi).elim (hg i) (h i)

/-- A field that is there is checked, whatever its default would be. -/
theorem restores_field {entries : Tree.Entries} {name : Text} {default : Option α}
    {check : Tree → Checked α} {t : Tree} (ht : Tree.find? (.str name) entries = some t)
    (h : Restores ok a (check t)) : Restores ok a (field entries name default check) := by
  unfold field
  rw [ht]
  exact h.under _

theorem restores_each {check : Tree → Checked α} {dump : α → Tree} {ok : α → Bool}
    (h : ∀ a, Restores (ok a) a (check (dump a))) (n : Nat) (as : List α) :
    Restores (as.all ok) as (each check n (as.map dump)) := by
  induction as generalizing n with
  | nil => exact .whole []
  | cons a rest ih => exact (((h a).under _).map List.cons).seq (ih (n + 1))

end Checked

open Checked

namespace DataType

variable {place : Surrounding} {above levels : Nat} {entries : Tree.Entries} {kind : Kind}

section Forms

theorem check_below (hk : kindOf entries = .ok kind) (hb : below? place above kind = none) :
    check place above (.map entries) = (issue .tooDeep).under (.field kind.name) := by
  rw [check, hk]
  simp only [hb]

theorem check_primitive (hk : kindOf entries = .ok .primitive)
    (hb : below? place above .primitive = some levels) :
    check place above (.map entries) = (checkPrimitive entries).under (.field "primitive") := by
  rw [check, hk]
  simp only [hb]
  rfl

theorem check_reference (hk : kindOf entries = .ok .reference)
    (hb : below? place above .reference = some levels) :
    check place above (.map entries) = (checkReference entries).under (.field "reference") := by
  rw [check, hk]
  simp only [hb]
  rfl

theorem check_array {items : Tree} (hk : kindOf entries = .ok .array)
    (hb : below? place above .array = some levels)
    (hi : Tree.find? (.str "items") entries = some items) :
    check place above (.map entries) =
      ((array <$> check (place.inside .array) levels items).under (.field "items")).under
        (.field "array") := by
  rw [check, hk]
  simp only [hb]
  split
  · rename_i hn
    cases hn.symm.trans hi
  · rename_i found hf
    cases hf.symm.trans hi
    rfl

theorem check_object {properties : Tree.Entries} (hk : kindOf entries = .ok .object)
    (hb : below? place above .object = some levels)
    (hp : Tree.find? (.str "properties") entries = some (.map properties)) :
    check place above (.map entries) =
      ((object <$> collectProperties (properties.map fun e =>
        (e.1, check (place.inside .object) levels e.2))).under (.field "properties")).under
          (.field "object") := by
  rw [check, hk]
  simp only [hb]
  split
  · rename_i hn
    cases hn.symm.trans hp
  · rename_i found hf
    cases hf.symm.trans hp
    simp only [List.map_attach_eq_pmap, List.pmap_eq_map]
    rfl
  · rename_i hne hf
    cases hf.symm.trans hp
    exact absurd rfl (hne _)

end Forms

section Types

theorem exists_entries_dump (t : DataType) :
    ∃ entries, t.dump = .map entries ∧ kindOf entries = .ok t.kind := by
  cases t <;> exact ⟨_, rfl, rfl⟩

mutual

/-- A dumped type is checked to be what it was, as far as it is within the limit. -/
theorem restores_dump (place : Surrounding) (above : Nat) (t : DataType) :
    Restores (t.isShallow place above) t (check place above t.dump) := by
  unfold isShallow
  cases hb : below? place above t.kind with
  | none =>
    obtain ⟨entries, hentries, hk⟩ := t.exists_entries_dump
    rw [hentries, check_below hk hb]
    exact (restores_tooDeep t).under _
  | some levels =>
    cases t with
    | primitive name format =>
      rw [dump, Tree.record, check_primitive rfl hb]
      cases format <;> exact (Restores.whole _).under _
    | reference name =>
      rw [dump, Tree.record, check_reference rfl hb]
      exact (Restores.whole _).under _
    | array items =>
      rw [dump, Tree.record, check_array rfl hb rfl]
      exact (((restores_dump _ levels items).map array).under _).under _
    | object properties =>
      rw [dump, Tree.record, check_object rfl hb rfl]
      exact (((restores_dumpProperties _ levels properties).map object).under _).under _

theorem restores_dumpProperties (place : Surrounding) (above : Nat)
    (properties : List (Text × DataType)) :
    Restores (areShallow place above properties) properties
      (collectProperties ((dumpProperties properties).map fun e =>
        (e.1, check place above e.2))) := by
  match properties with
  | [] => exact .whole []
  | (name, t) :: rest =>
    have htype := ((restores_dump place above t).under (.field name)).map
      fun t rest => (name, t) :: rest
    exact htype.seq (restores_dumpProperties place above rest)

end

end Types

end DataType

section Records

theorem Column.restores_dump (c : Column) :
    Restores (c.type.isShallow .declared 0) c (object Column.check c.dump) := by
  obtain ⟨name, type, nullable, primaryKey⟩ := c
  have hfields : Restores (((true && type.isShallow .declared 0) && true) && true)
      ⟨name, type, nullable, primaryKey⟩
      (object Column.check (Column.mk name type nullable primaryKey).dump) :=
    ((((restores_field rfl (.whole name)).map Column.mk).seq
      (restores_field rfl (type.restores_dump .declared 0))).seq
        (restores_field rfl (.whole nullable))).seq (restores_field rfl (.whole primaryKey))
  simpa using hfields

theorem Table.restores_dump (t : Table) :
    Restores (t.columns.all (·.type.isShallow .declared 0)) t (object Table.check t.dump) := by
  obtain ⟨name, columns⟩ := t
  have hfields : Restores (true && columns.all (·.type.isShallow .declared 0)) ⟨name, columns⟩
      (object Table.check (Table.mk name columns).dump) :=
    ((restores_field rfl (.whole name)).map Table.mk).seq
      (restores_field rfl (restores_each Column.restores_dump 0 columns))
  simpa using hfields

theorem Parameter.restores_dump (p : Parameter) :
    Restores (p.type.isShallow .declared 0) p (object Parameter.check p.dump) := by
  obtain ⟨name, location, required, type⟩ := p
  have hlocation : Restores true location (word Location.ofName? (.str location.name)) := by
    cases location <;> exact .whole _
  have hfields : Restores (((true && true) && true) && type.isShallow .declared 0)
      ⟨name, location, required, type⟩
      (object Parameter.check (Parameter.mk name location required type).dump) :=
    ((((restores_field rfl (.whole name)).map Parameter.mk).seq
      (restores_field rfl hlocation)).seq (restores_field rfl (.whole required))).seq
        (restores_field rfl (type.restores_dump .declared 0))
  simpa using hfields

theorem Endpoint.restores_dump (f : Endpoint) :
    Restores (f.parameters.all (·.type.isShallow .declared 0)) f
      (object Endpoint.check f.dump) := by
  obtain ⟨name, method, path, parameters, request, response, summary⟩ := f
  have hmethod : Restores true method (word Method.ofName? (.str method.name)) := by
    cases method <;> exact .whole _
  have hbody (body : Option Text) : Restores true body (optionalText (.ofText? body)) := by
    cases body <;> exact .whole _
  have hfields : Restores
      ((((((true && true) && true) && parameters.all (·.type.isShallow .declared 0)) && true) &&
        true) && true)
      ⟨name, method, path, parameters, request, response, summary⟩
      (object Endpoint.check
        (Endpoint.mk name method path parameters request response summary).dump) :=
    (((((((restores_field rfl (.whole name)).map Endpoint.mk).seq
      (restores_field rfl hmethod)).seq (restores_field rfl (.whole path))).seq
        (restores_field rfl (restores_each Parameter.restores_dump 0 parameters))).seq
          (restores_field rfl (hbody request))).seq (restores_field rfl (hbody response))).seq
            (restores_field rfl (.whole summary))
  simpa using hfields

theorem Spec.restores_dump (s : Spec) : Restores s.isShallow s (object Spec.check s.dump) :=
  ((restores_field rfl (restores_each Table.restores_dump 0 s.tables)).map Spec.mk).seq
    (restores_field rfl (restores_each Endpoint.restores_dump 0 s.functions))

end Records

namespace Spec
variable (s : Spec)

/-- The types that columns and parameters are declared with. -/
def types : List DataType :=
  s.tables.flatMap (·.columns.map (·.type)) ++ s.functions.flatMap (·.parameters.map (·.type))

theorem isShallow_iff : s.isShallow = true ↔ ∀ t ∈ s.types, t.isShallow .declared 0 = true := by
  have hall : s.isShallow = s.types.all (·.isShallow .declared 0) := by
    simp [isShallow, types, List.all_flatMap, Function.comp_def]
  rw [hall, List.all_eq_true]

/-- The data of a specification is checked to be that specification again, all its lists in their
order, just when its types are within the limit of depth. Beyond the limit there is no data, and a
check of it would find fault with nothing but the depth. What is nested 252 times is within the
limit wherever it stands, and what is nested 256 times is not. -/
theorem check_dump_iff :
    (s.dump?.map (object Spec.check) = some (valid s) ↔ s.isShallow = true) ∧
    (s.isShallow = false → s.dump? = none ∧ Restores false s (object Spec.check s.dump)) ∧
    ((∀ t ∈ s.types, t.depth ≤ 252) → s.isShallow = true) ∧
    (s.isShallow = true → ∀ t ∈ s.types, t.depth < 256) := by
  have hrestores := s.restores_dump
  refine ⟨?iff, ?beyond, ?sufficient, ?necessary⟩
  case iff =>
    cases hs : s.isShallow with
    | true =>
      rw [hs] at hrestores
      have hvalid := hrestores.eq_valid_iff.mpr rfl
      simp [dump?, hs, hvalid]
    | false => simp [dump?, hs]
  case beyond =>
    intro hs
    rw [hs] at hrestores
    exact ⟨by simp [dump?, hs], hrestores⟩
  case sufficient =>
    intro h
    rw [isShallow_iff]
    intro t ht
    have hdepth := h t ht
    exact DataType.isShallow_of_le .declared 0 t (by
      simp only [DataType.Surrounding.margin, DataType.levelLimit]
      omega)
  case necessary =>
    intro h t ht
    have hdepth := DataType.depth_le_of_isShallow .declared 0 t (s.isShallow_iff.mp h t ht)
    simp only [DataType.levelLimit] at hdepth
    omega

/-- A table with a column of arrays in arrays. -/
def nestedArrays (n : Nat) : Spec :=
  ⟨[⟨"T", [⟨"a", .arrays n .unknown, true, false⟩]⟩], []⟩

/-- One array more than is within the limit. -/
theorem check_dump_nestedArrays :
    (nestedArrays 253).isShallow = true ∧
    (nestedArrays 254).dump?.map (object Spec.check) ≠ some (valid (nestedArrays 254)) := by
  have hs : (nestedArrays 254).isShallow = false := by decide +kernel
  exact ⟨by decide +kernel, by simp [dump?, hs]⟩

end Spec
end ApiScaffold
