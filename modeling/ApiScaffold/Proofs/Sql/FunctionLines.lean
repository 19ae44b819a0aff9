import ApiScaffold.Proofs.Sql.Letters
import ApiScaffold.Proofs.Text.Infix
import ApiScaffold.Proofs.Text.Pieces

namespace ApiScaffold
open Text

namespace Sql
variable {l line text verb : Text}

/-- A line that holds a comment and nothing behind it. -/
def IsCommentLine (line : Text) : Prop :=
  Text.ofString "  --" <+: line ∧ ∀ c ∈ line, c.is isLineBreak = false

/-- A line with one statement: between the verb and the only semicolon stand names and signs, so
neither a line break nor a dash nor a second semicolon. -/
def IsStatementLine (verb line : Text) : Prop :=
  ∃ code, Over isCodeChar code ∧ line = "  " ++ verb ++ " " ++ code ++ ";"

/-- Exactly one line with a statement of the verb, or no line where there is no verb. -/
def Executes (verb? : Option Text) (lines : List Text) : Prop :=
  match verb? with
  | some verb => ∃ line, lines = [line] ∧ IsStatementLine verb line
  | none => lines = []

theorem IsCommentLine.lineFeed_not_mem (h : IsCommentLine line) : .char '\n' ∉ line := by
  intro hm
  exact absurd (h.2 _ hm) (by decide)

theorem IsStatementLine.not_mem {c : Char} (h : IsStatementLine verb line)
    (hv : Over isCodeChar verb) (hc : isCodeChar c = false) (hs : c ≠ ';') : .char c ∉ line := by
  obtain ⟨code, hcode, rfl⟩ := h
  have hover := ((Over.append (s := "  ") (by decide) hv).append (t := " ") (by decide)).append
    hcode
  intro hm
  rcases List.mem_append.mp hm with hm | hm
  · exact hover.not_mem hc hm
  · have he : CodePoint.char c = .char ';' := by simpa [ofString, ofChars] using hm
    exact hs (CodePoint.char.inj he)

theorem Executes.exists_verb {verb? : Option Text} {lines : List Text} (h : Executes verb? lines)
    (hl : line ∈ lines) : ∃ verb, verb? = some verb ∧ IsStatementLine verb line := by
  cases verb? with
  | none =>
    have hnil : lines = [] := h
    rw [hnil] at hl
    cases hl
  | some verb =>
    obtain ⟨m, rfl, hm⟩ := h
    obtain rfl := List.mem_singleton.mp hl
    exact ⟨verb, rfl, hm⟩

theorem trimEnd_dashes (line : Text) :
    trimEnd ("-- " ++ line) = "--" ++ trimEnd (" " ++ line) := by
  change dropLastWhile isBlank (.char '-' :: .char '-' :: (" " ++ line)) = _
  rw [dropLastWhile_cons (by decide), dropLastWhile_cons (by decide)]
  rfl

/-- Every line of a comment's text becomes a comment line, so no text ends its comment. -/
theorem isCommentLine_of_mem_commentLines (h : l ∈ commentLines text) :
    IsCommentLine (indent ++ l) := by
  obtain ⟨line, hline, rfl⟩ := List.mem_map.mp h
  have hunbroken : ∀ c ∈ line, c.is isLineBreak = false := by
    intro c hc
    split at hline
    · obtain rfl := List.mem_singleton.mp hline
      cases hc
    · exact not_break_of_mem_splitLines hline hc
  refine ⟨?_, ?_⟩
  · rw [trimEnd_dashes]
    exact ⟨trimEnd (" " ++ line), rfl⟩
  · obtain ⟨cut, -, hcut⟩ := dropLastWhile_append isBlank ("-- " ++ line)
    intro c hc
    rcases List.mem_append.mp hc with hc | hc
    · exact (by decide : ∀ c ∈ indent, c.is isLineBreak = false) c hc
    · have hm : c ∈ Text.ofString "-- " ++ line := by
        rw [hcut]
        exact List.mem_append_left _ hc
      rcases List.mem_append.mp hm with hm | hm
      · exact (by decide : ∀ c ∈ ofString "-- ", c.is isLineBreak = false) c hm
      · exact hunbroken c hm

end Sql

namespace Endpoint
variable (f : Endpoint)

/-- The statement that is executed, if the method has one. -/
def executed : List Sql.Statement :=
  match f.method with
  | .get => [.select f.tableName f.pathFilter]
  | .post => [.insert f.tableName f.responseBody.isSome]
  | .delete => [.delete f.tableName f.pathFilter f.responseBody.isSome]
  | .put | .patch | .head | .options | .trace => []

/-- The texts of the comments. -/
def notes : List Text :=
  f.statements.filterMap fun
    | .comment text => some text
    | _ => none

/-- The body explains first and executes last. -/
theorem statements_eq_append_executed :
    f.statements = f.notes.map .comment ++ f.executed := by
  unfold notes statements executed
  cases f.method with
  | get => simp [List.filterMap_append, List.filterMap_map, Function.comp_def]
  | post | put | patch | delete | head | options | trace => rfl

end Endpoint

namespace Method

/-- The verb of the statement that a function of the method executes, if it executes one. -/
def verb? : Method → Option Text
  | .get => some "SELECT"
  | .post => some "INSERT"
  | .delete => some "DELETE"
  | .put | .patch | .head | .options | .trace => none

theorem over_verb {m : Method} {verb : Text} (h : m.verb? = some verb) :
    Over Sql.isCodeChar verb := by
  cases m <;> cases h <;> decide

end Method

namespace Endpoint
variable (f : Endpoint)
open Sql

def noteLines : List Text :=
  (f.notes.flatMap commentLines).map (indent ++ ·)

def executedLines : List Text :=
  (f.executed.flatMap Statement.lines).map (indent ++ ·)

theorem executes_executedLines : Executes f.method.verb? f.executedLines := by
  have htable := over_quote f.over_tableName
  have hfilter := over_filterText f.isNamed_of_mem_pathFilter
  have hreturning := over_returningText f.responseBody.isSome
  unfold executedLines executed
  cases f.method with
  | get =>
    refine ⟨_, rfl, "* FROM " ++ quote f.tableName ++ filterText f.pathFilter, ?_, ?_⟩
    · exact (Over.append (by decide) htable).append hfilter
    · simp [indent]
      rfl
  | post =>
    refine ⟨_, rfl, "INTO " ++ quote f.tableName ++ " DEFAULT VALUES" ++
      returningText f.responseBody.isSome, ?_, ?_⟩
    · exact ((Over.append (by decide) htable).append (by decide)).append hreturning
    · simp [indent]
      rfl
  | delete =>
    refine ⟨_, rfl, "FROM " ++ quote f.tableName ++ filterText f.pathFilter ++
      returningText f.responseBody.isSome, ?_, ?_⟩
    · exact ((Over.append (by decide) htable).append hfilter).append hreturning
    · simp [indent]
      rfl
  | put | patch | head | options | trace => rfl

/-- The lines in front of the body and its opening quote. -/
def head (policy : Name.Policy) : List Text :=
  ["CREATE OR REPLACE FUNCTION " ++ quote (Identifier.ofFunction f.name) ++ "(" ++
      Text.joined ", " ((f.definition policy).arguments.map Typed.text) ++ ")",
    "RETURNS " ++ f.returnType policy, "LANGUAGE sql"]

theorem over_of_mem_head {policy : Name.Policy} {line : Text} (h : line ∈ f.head policy) :
    Over isCodeChar line := by
  have hname := over_quote (Identifier.over_ofFunction f.name)
  have hcreate := (Over.append (s := "CREATE OR REPLACE FUNCTION ") (by decide) hname).append
    (t := "(") (by decide)
  simp only [head, List.mem_cons, List.not_mem_nil, or_false] at h
  rcases h with rfl | rfl | rfl
  · exact (hcreate.append (f.over_arguments policy)).append (by decide)
  · exact Over.append (by decide) (f.over_returnType policy)
  · decide

theorem lines_definition (policy : Name.Policy) :
    (f.definition policy).lines = f.head policy ++ [Text.ofString "AS $$"] ++ f.noteLines ++
      f.executedLines ++ [Text.ofString "$$;"] := by
  change f.head policy ++ [Text.ofString "AS $$"] ++
    (f.statements.flatMap Statement.lines).map (indent ++ ·) ++ [Text.ofString "$$;"] = _
  rw [statements_eq_append_executed]
  simp [noteLines, executedLines, List.flatMap_map, Statement.lines]

theorem isCommentLine_of_mem_noteLines {line : Text} (h : line ∈ f.noteLines) :
    IsCommentLine line := by
  obtain ⟨l, hl, rfl⟩ := List.mem_map.mp h
  obtain ⟨note, -, hm⟩ := List.mem_flatMap.mp hl
  exact isCommentLine_of_mem_commentLines hm

theorem not_mem_of_mem_executedLines {line : Text} {c : Char} (h : line ∈ f.executedLines)
    (hc : isCodeChar c = false) (hs : c ≠ ';') : .char c ∉ line := by
  obtain ⟨verb, hv, hline⟩ := f.executes_executedLines.exists_verb h
  exact hline.not_mem (Method.over_verb hv) hc hs

theorem lineFeed_not_mem_of_mem_lines {policy : Name.Policy} {line : Text}
    (h : line ∈ (f.definition policy).lines) : .char '\n' ∉ line := by
  simp only [lines_definition, List.mem_append, List.mem_singleton, or_assoc] at h
  rcases h with hl | rfl | hl | hl | rfl
  · exact (f.over_of_mem_head hl).not_mem (by decide)
  · decide
  · exact (f.isCommentLine_of_mem_noteLines hl).lineFeed_not_mem
  · exact f.not_mem_of_mem_executedLines hl (by decide) (by decide)
  · decide

/-- The lines of the text are those that were written. -/
theorem pieces_eq_lines (policy : Name.Policy) :
    pieces (.char '\n') (f.sql policy) = (f.definition policy).lines :=
  pieces_joined (fun _ h => f.lineFeed_not_mem_of_mem_lines h) (by simp [lines_definition])

/-- No text of an endpoint adds, splits or removes a line of its function: behind the head stand
comment lines, then the one statement of the method, then the line that closes the body. -/
theorem pieces_sql (policy : Name.Policy) : ∃ notes executed : List Text,
    pieces (.char '\n') (f.sql policy) =
      f.head policy ++ [Text.ofString "AS $$"] ++ notes ++ executed ++ [Text.ofString "$$;"] ∧
    (∀ line ∈ notes, IsCommentLine line) ∧ Executes f.method.verb? executed :=
  ⟨f.noteLines, f.executedLines, (f.pieces_eq_lines policy).trans (f.lines_definition policy),
    fun _ h => f.isCommentLine_of_mem_noteLines h, f.executes_executedLines⟩

end Endpoint
end ApiScaffold
