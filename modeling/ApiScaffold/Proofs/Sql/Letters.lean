import ApiScaffold.Proofs.DataType.Mentions
import ApiScaffold.Sql.Schema

namespace ApiScaffold
open Text

theorem over_cleanAll {fallback : Text} {names : List Text}
    (hf : Over Identifier.isPart fallback) :
    ∀ n ∈ cleanAll fallback names, Over Identifier.isPart n := by
  intro n hn
  obtain ⟨i, hi, rfl⟩ := List.mem_mapIdx.mp hn
  have hd := (over_toString i).mono fun _ h => Identifier.isPart_of_isDigit h
  exact Identifier.over_clean (hf.append hd)

@[simp] theorem length_cleanAll (fallback : Text) (names : List Text) :
    (cleanAll fallback names).length = names.length := by
  simp [cleanAll]

namespace Sql

/-- What statements are written with, semicolons and comments apart: the letters of names, and
the signs that stand between names. -/
def isCodeChar (c : Char) : Bool :=
  Identifier.isPart c || c ∈ [' ', '"', '=', '*', '(', ')', ',', '[', ']']

/-- The signs among them that filters are written with. -/
def isFilterChar (c : Char) : Bool :=
  Identifier.isPart c || c ∈ [' ', '"', '=']

variable {name : Text}

theorem isCodeChar_of_isFilterChar {c : Char} (h : isFilterChar c = true) : isCodeChar c = true := by
  simp only [isFilterChar, isCodeChar, Bool.or_eq_true, decide_eq_true_eq, List.mem_cons,
    List.not_mem_nil, or_false] at h ⊢
  rcases h with h | h | h | h <;> simp [h]

theorem over_filter_quote (h : Over Identifier.isPart name) : Over isFilterChar (quote name) := by
  have hn : Over isFilterChar name := h.mono fun c hc => by simp [isFilterChar, hc]
  unfold quote
  split
  · exact (Over.append (by decide) hn).append (by decide)
  · exact hn

theorem over_quote (h : Over Identifier.isPart name) : Over isCodeChar (quote name) :=
  (over_filter_quote h).mono fun _ => isCodeChar_of_isFilterChar

/-- Both sides of the predicate are cleaned names. -/
def Predicate.IsNamed (p : Predicate) : Prop :=
  Over Identifier.isPart p.column ∧ Over Identifier.isPart p.argument

variable {ps : List Predicate}

theorem over_filter_conjunction (h : ∀ p ∈ ps, p.IsNamed) :
    Over isFilterChar (conjunction ps) := by
  apply Over.joined (by decide)
  intro t ht
  obtain ⟨p, hp, rfl⟩ := List.mem_map.mp ht
  obtain ⟨hc, ha⟩ := h p hp
  exact ((over_filter_quote hc).append (by decide)).append (over_filter_quote ha)

theorem over_conjunction (h : ∀ p ∈ ps, p.IsNamed) : Over isCodeChar (conjunction ps) :=
  (over_filter_conjunction h).mono fun _ => isCodeChar_of_isFilterChar

theorem over_filter_filterText (h : ∀ p ∈ ps, p.IsNamed) : Over isFilterChar (filterText ps) := by
  unfold filterText
  split
  · decide
  · exact Over.append (by decide) (over_filter_conjunction h)

theorem over_filterText (h : ∀ p ∈ ps, p.IsNamed) : Over isCodeChar (filterText ps) :=
  (over_filter_filterText h).mono fun _ => isCodeChar_of_isFilterChar

theorem over_returningText (returning : Bool) : Over isCodeChar (returningText returning) := by
  cases returning <;> decide

end Sql

open Sql

theorem DataType.over_sql (t : DataType) : Over isCodeChar t.sql :=
  t.sql_induction (by decide) fun _ h => h.append (by decide)

namespace Endpoint
variable (f : Endpoint)

theorem over_argumentNames : ∀ n ∈ f.argumentNames, Over Identifier.isPart n := by
  apply Name.claimAll_forall fun n k h => Name.over_numbered h k
  intro n hn
  obtain ⟨m, hm, rfl⟩ := List.mem_map.mp hn
  exact Over.append (by decide) (over_cleanAll (by decide) m hm)

@[simp] theorem length_argumentNames : f.argumentNames.length = f.parameters.length := by
  simp [argumentNames]

theorem over_tableName : Over Identifier.isPart f.tableName :=
  Identifier.over_clean (Identifier.over_ofFunction _)

theorem isNamed_of_mem_pathFilter : ∀ p ∈ f.pathFilter, p.IsNamed := by
  intro p hp
  obtain ⟨⟨q, column, argument⟩, hm, rfl⟩ := List.mem_map.mp hp
  have hz := (List.of_mem_zip (List.mem_filter.mp hm).1).2
  obtain ⟨hc, ha⟩ := List.of_mem_zip hz
  exact ⟨over_cleanAll (by decide) column hc, f.over_argumentNames argument ha⟩

theorem over_returnType (policy : Name.Policy) : Over isCodeChar (f.returnType policy) := by
  unfold returnType
  split
  · split
    · decide
    · exact DataType.over_sql _
  · decide

theorem over_arguments (policy : Name.Policy) :
    Over isCodeChar (Text.joined ", " ((f.definition policy).arguments.map Typed.text)) := by
  apply Over.joined (by decide)
  intro t ht
  obtain ⟨a, ha, rfl⟩ := List.mem_map.mp ht
  obtain ⟨⟨name, p⟩, hm, rfl⟩ := List.mem_map.mp ha
  have hname := f.over_argumentNames name (List.of_mem_zip hm).1
  exact ((over_quote hname).append (by decide)).append (DataType.over_sql _)

end Endpoint
end ApiScaffold
