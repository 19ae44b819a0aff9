import ApiScaffold.Proofs.Document.Specification
import ApiScaffold.Proofs.Spec.Distinct
import ApiScaffold.Proofs.Sql.Letters
import ApiScaffold.Proofs.Text.Pieces
import ApiScaffold.Proofs.Text.Settled

namespace ApiScaffold
open Text

namespace Sql
variable {a b name opening rest : Text} {names : List Text}

/-- What names are written with, quoted or not. -/
def isWritten (c : Char) : Bool :=
  Identifier.isPart c || c == '"'

/-- The name that a statement has behind the words it opens with, as it is written. -/
def nameBehind (opening statement : Text) : Text :=
  (statement.drop opening.length).takeWhile (·.is isWritten)

/-- The name of the object that the database makes: a bare name is folded to lower case, and one
between double quotes is taken as it is written. -/
def objectName (written : Text) : Text :=
  match written with
  | .char '"' :: quoted => quoted.dropLast
  | bare => lower bare

theorem over_isWritten_quote (h : Over Identifier.isPart name) : Over isWritten (quote name) := by
  have hname : Over isWritten name := h.mono fun c hc => by simp [isWritten, hc]
  unfold quote
  split
  · exact (Over.append (by decide) hname).append (by decide)
  · exact hname

theorem nameBehind_append {c : CodePoint} (h : Over Identifier.isPart name)
    (hc : c.is isWritten = false) :
    nameBehind opening (opening ++ (quote name ++ c :: rest)) = quote name := by
  rw [nameBehind, List.drop_left, List.takeWhile_append_of_pos (over_isWritten_quote h),
    List.takeWhile_cons, hc]
  simp

/-- Only a keyword is kept as it is written, for only keywords are quoted. -/
theorem objectName_quote (h : Over Identifier.isPart name) :
    objectName (quote name) = if isKeyword name then name else lower name := by
  unfold quote
  split
  · simp [objectName, ofString, ofChars]
  · unfold objectName
    split
    · rename_i quoted
      exact absurd (h (.char '"') List.mem_cons_self) (by decide)
    · rfl

theorem isKeyword_congr (h : lower a = lower b) : isKeyword a = isKeyword b := by
  rw [isKeyword, isKeyword, h]

theorem isKeyword_objectName (h : Over Identifier.isPart name) :
    isKeyword (objectName (quote name)) = isKeyword name := by
  rw [objectName_quote h]
  split
  · rfl
  · exact isKeyword_congr (lower_lower name)

theorem objectName_quote_eq_iff (ha : Over Identifier.isPart a) (hb : Over Identifier.isPart b)
    (hne : a ≠ b) :
    objectName (quote a) = objectName (quote b) ↔ lower a = lower b ∧ isKeyword a = false := by
  constructor
  · intro h
    have hk : isKeyword a = isKeyword b := by
      rw [← isKeyword_objectName ha, ← isKeyword_objectName hb, h]
    rw [objectName_quote ha, objectName_quote hb, ← hk] at h
    cases hka : isKeyword a with
    | true => exact absurd (by simpa [hka] using h) hne
    | false => exact ⟨by simpa [hka] using h, rfl⟩
  · rintro ⟨hl, hk⟩
    rw [objectName_quote ha, objectName_quote hb, ← isKeyword_congr hl, hk, hl]
    rfl

/-- Names that are written apart name different objects just when no two of them differ in case
alone, keywords apart. -/
theorem nodup_objectName_iff (hnames : ∀ n ∈ names, Over Identifier.isPart n)
    (hnodup : names.Nodup) :
    (names.map fun n => objectName (quote n)).Nodup ↔
      names.Pairwise fun a b => lower a = lower b → isKeyword a = true := by
  rw [List.Nodup, List.pairwise_map]
  constructor
  · intro h
    refine (hnodup.and h).imp_of_mem fun {a b} ha hb hab hl => ?_
    by_contra hk
    exact hab.2 ((objectName_quote_eq_iff (hnames a ha) (hnames b hb) hab.1).mpr
      ⟨hl, by simpa using hk⟩)
  · intro h
    refine (hnodup.and h).imp_of_mem fun {a b} ha hb hab he => ?_
    obtain ⟨hl, hk⟩ := (objectName_quote_eq_iff (hnames a ha) (hnames b hb) hab.1).mp he
    rw [hab.2 hl] at hk
    cases hk

end Sql

open Sql

/-- The object that the statement of a table makes. -/
def Table.object (t : Table) : Text :=
  objectName (nameBehind "CREATE TABLE IF NOT EXISTS " t.sql)

/-- The object that the statement of a function makes. -/
def Endpoint.object (policy : Name.Policy) (f : Endpoint) : Text :=
  objectName (nameBehind "CREATE OR REPLACE FUNCTION " (f.sql policy))

theorem Table.object_eq (t : Table) : t.object = objectName (quote (Identifier.ofTable t.name)) := by
  have hname := Identifier.over_ofTable t.name
  obtain ⟨rest, hrest⟩ : ∃ rest, t.sql = Text.ofString "CREATE TABLE IF NOT EXISTS " ++
      (quote (Identifier.ofTable t.name) ++ .char ' ' :: rest) := by
    rw [sql, TableDefinition.text, List.append_assoc]
    split
    · exact ⟨_, rfl⟩
    · simp only [List.append_assoc]
      exact ⟨_, rfl⟩
  rw [object, hrest, nameBehind_append hname (by decide)]

theorem Endpoint.object_eq (policy : Name.Policy) (f : Endpoint) :
    f.object policy = objectName (quote (Identifier.ofFunction f.name)) := by
  have hname := Identifier.over_ofFunction f.name
  obtain ⟨rest, hrest⟩ : ∃ rest, f.sql policy = Text.ofString "CREATE OR REPLACE FUNCTION " ++
      (quote (Identifier.ofFunction f.name) ++ .char '(' :: rest) := by
    rw [sql, FunctionDefinition.text, FunctionDefinition.lines, joined, List.append_assoc,
      List.cons_append, intercalate_cons_eq_append_flatMap]
    simp only [List.append_assoc]
    exact ⟨_, rfl⟩
  rw [object, hrest, nameBehind_append hname (by decide)]

namespace Document
variable {policy : Name.Policy} {root : Tree} {s : Spec}

/-- No two tables of an accepted document have one name as it is written, and no two functions.
But the database folds names that are not quoted, so it makes an object for each of them just when
no two names differ in case alone, keywords apart. -/
theorem nodup_objects_iff (h : (spec policy root).result = .ok s) (rendering : Name.Policy) :
    s.tableNames.Nodup ∧ s.functionNames.Nodup ∧
    ((s.tables.map Table.object).Nodup ↔
      s.tableNames.Pairwise fun a b => lower a = lower b → isKeyword a = true) ∧
    ((s.functions.map (Endpoint.object rendering)).Nodup ↔
      s.functionNames.Pairwise fun a b => lower a = lower b → isKeyword a = true) := by
  obtain ⟨htables, hfunctions, -⟩ := s.distinct_iff.mpr (parsed_of_spec h).collisions
  have htable : s.tables.map Table.object =
      s.tableNames.map fun n => objectName (quote n) := by
    rw [Spec.tableNames, List.map_map]
    exact List.map_congr_left fun t _ => t.object_eq
  have hfunction : s.functions.map (Endpoint.object rendering) =
      s.functionNames.map fun n => objectName (quote n) := by
    rw [Spec.functionNames, List.map_map]
    exact List.map_congr_left fun f _ => f.object_eq rendering
  rw [htable, hfunction]
  refine ⟨htables, hfunctions, nodup_objectName_iff ?_ htables, nodup_objectName_iff ?_ hfunctions⟩
  · intro n hn
    obtain ⟨t, -, rfl⟩ := List.mem_map.mp hn
    exact Identifier.over_ofTable t.name
  · intro n hn
    obtain ⟨f, -, rfl⟩ := List.mem_map.mp hn
    exact Identifier.over_ofFunction f.name

/-- A document with entities that have no properties. -/
def entitiesOnly (names : List Text) : Tree :=
  .map [(.str "components", .map [(.str "schemas", .map (names.map fun n => (.str n, .map [])))])]

theorem spec_entitiesOnly {names : List Text}
    (h : (Spec.mk (names.map fun n => ⟨n, []⟩) []).collisions = []) :
    (spec policy (entitiesOnly names)).result = .ok ⟨names.map fun n => ⟨n, []⟩, []⟩ := by
  have hparsed : Parsed policy ⟨entitiesOnly names⟩ ⟨names.map fun n => ⟨n, []⟩, []⟩ :=
    ⟨result_tables_empty policy _ names, ⟨[], rfl, rfl⟩, h⟩
  exact hparsed.result_spec rfl

/-- A keyword is quoted in any case, so these two stay apart. -/
theorem nodup_objects_users :
    ∃ s, (spec .standard (entitiesOnly ["User", "user"])).result = .ok s ∧
      (s.tables.map Table.object).Nodup := by
  have h : (spec .standard (entitiesOnly ["User", "user"])).result =
      .ok ⟨[⟨"User", []⟩, ⟨"user", []⟩], []⟩ :=
    spec_entitiesOnly (by decide +kernel)
  exact ⟨_, h, (nodup_objects_iff h .standard).2.2.1.mpr (by decide +kernel)⟩

theorem not_nodup_objects_pets :
    ∃ s, (spec .standard (entitiesOnly ["Pet", "pet"])).result = .ok s ∧
      ¬ (s.tables.map Table.object).Nodup := by
  have h : (spec .standard (entitiesOnly ["Pet", "pet"])).result =
      .ok ⟨[⟨"Pet", []⟩, ⟨"pet", []⟩], []⟩ :=
    spec_entitiesOnly (by decide +kernel)
  refine ⟨_, h, ?_⟩
  simp only [List.map_cons, List.map_nil, Table.object_eq]
  decide +kernel

end Document

end ApiScaffold
