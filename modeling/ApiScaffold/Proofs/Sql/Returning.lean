import ApiScaffold.Proofs.Sql.FunctionLines

namespace ApiScaffold
open Text Sql

/-- No type of a column is called like the absence of a result. -/
theorem DataType.sql_ne_void (t : DataType) : Text.ofString t.sql ≠ "VOID" := by
  cases t with
  | primitive name format =>
    simp only [sql, sqlPrimitive]
    repeat' split
    all_goals decide
  | array items =>
    intro h
    rw [sql, ofString_append] at h
    have hmarker : CodePoint.char ']' ∈ ofString "VOID" := h ▸ List.mem_append_right _ (by decide)
    exact absurd hmarker (by decide)
  | reference name =>
    rw [sql]
    decide
  | object properties =>
    rw [sql]
    decide

namespace Endpoint
variable {f : Endpoint} {policy : Name.Policy}

/-- A statement of the function gives back the rows that it changes. -/
def GivesBack (policy : Name.Policy) (f : Endpoint) : Prop :=
  ∃ line ∈ (f.definition policy).lines,
    ¬ IsCommentLine line ∧ Text.ofString " RETURNING *;" <:+ line

/-- The function says that it has no result. -/
def ReturnsVoid (policy : Name.Policy) (f : Endpoint) : Prop :=
  Text.ofString "RETURNS VOID" ∈ (f.definition policy).lines

/-- Inserting and deleting are one line each, with no star and no dash but those of its end. -/
theorem executedLines_of_change (hm : f.method = .post ∨ f.method = .delete) :
    ∃ code, Over isFilterChar code ∧ f.executedLines =
      [Text.ofString "  " ++ code ++ (returningText f.responseBody.isSome ++ Text.ofString ";")] := by
  have htable := over_filter_quote f.over_tableName
  rcases hm with hm | hm
  · refine ⟨"INSERT INTO " ++ quote f.tableName ++ " DEFAULT VALUES", ?_, ?_⟩
    · exact (Over.append (by decide) htable).append (by decide)
    · simp [executedLines, executed, hm, Statement.lines, indent]
  · refine ⟨"DELETE FROM " ++ quote f.tableName ++ filterText f.pathFilter, ?_, ?_⟩
    · exact (Over.append (by decide) htable).append
        (over_filter_filterText f.isNamed_of_mem_pathFilter)
    · simp [executedLines, executed, hm, Statement.lines, indent]

theorem dash_mem_of_isCommentLine {line : Text} (h : IsCommentLine line) : .char '-' ∈ line :=
  h.1.subset (by decide)

/-- A function that inserts or deletes gives back its rows just when a response is declared,
whatever its type is called. -/
theorem givesBack_iff (hm : f.method = .post ∨ f.method = .delete) :
    f.GivesBack policy ↔ f.responseBody.isSome = true := by
  obtain ⟨code, hcode, hline⟩ := executedLines_of_change hm
  have hstar : CodePoint.char '*' ∉ code := hcode.not_mem (by decide)
  have hdash : CodePoint.char '-' ∉ code := hcode.not_mem (by decide)
  constructor
  · rintro ⟨line, hl, hcomment, hend⟩
    have hstar' : CodePoint.char '*' ∈ line := hend.subset (by decide)
    have hsemicolon : CodePoint.char ';' ∈ line := hend.subset (by decide)
    simp only [lines_definition, hline, List.mem_append, List.mem_singleton, or_assoc] at hl
    rcases hl with hl | rfl | hl | rfl | rfl
    · exact absurd hsemicolon ((f.over_of_mem_head hl).not_mem (by decide))
    · exact absurd hsemicolon (by decide)
    · exact absurd (f.isCommentLine_of_mem_noteLines hl) hcomment
    · cases hsome : f.responseBody.isSome with
      | true => rfl
      | false => simp [hsome, hstar, returningText, ofString, ofChars] at hstar'
    · exact absurd hstar' (by decide)
  · intro hsome
    refine ⟨Text.ofString "  " ++ code ++
      (returningText f.responseBody.isSome ++ Text.ofString ";"), ?_, ?_, ?_⟩
    · simp [lines_definition, hline]
    · intro hcomment
      have hdash' := dash_mem_of_isCommentLine hcomment
      simp [hsome, hdash, returningText, ofString, ofChars] at hdash'
    · rw [hsome]
      exact List.suffix_append _ _

theorem returnsVoid_iff : f.ReturnsVoid policy ↔ f.returnType policy = "VOID" := by
  have hsplit : Text.ofString "RETURNS VOID" = Text.ofString "RETURNS " ++ Text.ofString "VOID" :=
    rfl
  rw [ReturnsVoid, lines_definition]
  constructor
  · intro h
    simp only [head, List.mem_append, List.mem_cons, List.not_mem_nil, or_false, or_assoc] at h
    rcases h with h | h | h | h | h | h | h
    · cases congrArg List.head? h
    · exact (List.append_cancel_left (hsplit.symm.trans h)).symm
    · exact absurd h (by decide)
    · exact absurd h (by decide)
    · exact absurd (dash_mem_of_isCommentLine (f.isCommentLine_of_mem_noteLines h)) (by decide)
    · obtain ⟨verb, -, code, -, hline⟩ := f.executes_executedLines.exists_verb h
      cases congrArg List.head? hline
    · exact absurd h (by decide)
  · intro h
    simp [head, h, hsplit]

/-- A function that inserts or deletes has no result when the response is not declared, and also
when the type of the response is the empty text. -/
theorem returnType_eq_void_iff (hm : f.method = .post ∨ f.method = .delete) :
    f.returnType policy = "VOID" ↔ nonEmpty? f.responseBody = none := by
  have hexecuted : f.statements.all Statement.isComment = false := by
    rcases hm with hm | hm <;> simp [statements, hm, Statement.isComment]
  unfold returnType
  cases nonEmpty? f.responseBody with
  | none => simp
  | some body =>
    simp only [hexecuted, Bool.false_eq_true, if_false, reduceCtorEq, iff_false]
    exact DataType.sql_ne_void _

end Endpoint
end ApiScaffold
