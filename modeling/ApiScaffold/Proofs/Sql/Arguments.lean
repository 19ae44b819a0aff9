import ApiScaffold.Proofs.Name.Claimed
import ApiScaffold.Proofs.Sql.Comments
import ApiScaffold.Proofs.Sql.FunctionReading
import ApiScaffold.Proofs.Sql.Soundness
import Mathlib.Data.List.Zip

namespace ApiScaffold
open Text Identifier

namespace Sql
variable {name s t : Text} {ps : List Predicate}

theorem isBlank_of_isPart {c : Char} (h : isPart c = true) : isBlank (.char c) = false := by
  delta isPart Char.isAlphanum Char.isAlpha Char.isUpper Char.isLower Char.isDigit at h
  have htoNat : c.val.toNat = c.toNat := rfl
  simp only [Bool.or_eq_true, Bool.and_eq_true, decide_eq_true_eq, UInt32.le_iff_toNat_le,
    beq_iff_eq, htoNat] at h
  simp at h
  rcases h with h | rfl
  · have hcode : (CodePoint.char c).toNat = c.toNat := rfl
    simp only [isBlank, Bool.or_eq_false_iff, Bool.and_eq_false_iff, beq_eq_false_iff_ne,
      decide_eq_false_iff_not]
    omega
  · decide

theorem isLineBreak_of_isCodeChar {c : Char} (h : isCodeChar c = true) : isLineBreak c = false := by
  by_contra hbreak
  simp only [isLineBreak, Bool.not_eq_false, Bool.or_eq_true, beq_iff_eq, or_assoc] at hbreak
  rcases hbreak with rfl | rfl | rfl | rfl | rfl | rfl | rfl | rfl | rfl | rfl <;>
    exact absurd h (by decide)

/-- A text that trimming leaves as it is. -/
def IsTrimmed (t : Text) : Prop :=
  ∃ s d, t = s ++ [d] ∧ isBlank d = false

theorem IsTrimmed.append (h : IsTrimmed t) (s : Text) : IsTrimmed (s ++ t) := by
  obtain ⟨before, d, rfl, hd⟩ := h
  exact ⟨s ++ before, d, (List.append_assoc ..).symm, hd⟩

theorem isTrimmed_quote (h : IsName name) : IsTrimmed (quote name) := by
  unfold quote
  split
  · exact ⟨_, .char '"', rfl, by decide⟩
  · obtain ⟨p, hp, -⟩ := h.opens
    have hne : name ≠ [] := List.ne_nil_of_mem (List.mem_of_mem_head? hp)
    refine ⟨_, name.getLast hne, (List.dropLast_append_getLast hne).symm, ?_⟩
    have hpart := h.parts _ (List.getLast_mem hne)
    cases hlast : name.getLast hne with
    | surrogate n =>
      rw [hlast] at hpart
      cases hpart
    | char c =>
      rw [hlast] at hpart
      exact isBlank_of_isPart hpart

theorem isTrimmed_conjunction {p : Predicate} (h : ∀ q ∈ p :: ps, q.Legible) :
    IsTrimmed (conjunction (p :: ps)) := by
  induction ps generalizing p with
  | nil =>
    have hlast := (isTrimmed_quote (h p List.mem_cons_self).2).append (quote p.column ++ " = ")
    simpa [conjunction, joined, Predicate.text] using hlast
  | cons next ps ih =>
    have hrest := ih fun q hq => h q (List.mem_cons_of_mem _ hq)
    have hcons : conjunction (p :: next :: ps) =
        p.text ++ " AND " ++ conjunction (next :: ps) := List.intercalate_cons_cons
    rw [hcons]
    exact hrest.append _

theorem ends_returningText (returning : Bool) : ∃ rest ∈ statementEnds,
    lexicon.lex (returningText returning ++ ";") = some rest ∧
      ∀ p ∈ (returningText returning ++ ";").head?, p.is isWordChar = false := by
  cases returning with
  | true => exact ⟨_, List.mem_cons_of_mem _ List.mem_cons_self, by decide +kernel, by decide⟩
  | false => exact ⟨_, List.mem_cons_self, by decide +kernel, by decide⟩

/-- The comment about an update is one line. -/
theorem commentLines_conjunction {p : Predicate} (h : ∀ q ∈ p :: ps, q.Legible) :
    commentLines ("Target rows: WHERE " ++ conjunction (p :: ps)) =
      [Text.ofString "-- " ++ ("Target rows: WHERE " ++ conjunction (p :: ps))] := by
  have hover := over_conjunction fun q hq => ⟨(h q hq).1.parts, (h q hq).2.parts⟩
  refine commentLines_of_plain ?dollar ?breaks ((isTrimmed_conjunction h).append _)
  case dollar =>
    intro hm
    rcases List.mem_append.mp hm with hm | hm
    · exact absurd hm (by decide)
    · exact hover.not_mem (by decide) hm
  case breaks =>
    intro c hc
    have hwords : ∀ p ∈ Text.ofString "Target rows: WHERE ", p.is isLineBreak = false := by decide
    rcases List.mem_append.mp hc with hc | hc
    · exact hwords c hc
    · have hcode := hover c hc
      cases c with
      | surrogate n => cases hcode
      | char c => exact isLineBreak_of_isCodeChar hcode

end Sql

open Sql

namespace Endpoint
variable (f : Endpoint)

theorem legible_of_mem_pathFilter : ∀ p ∈ f.pathFilter, p.Legible :=
  f.isName_of_mem_pathFilter

theorem legible_of_mem_arguments (policy : Name.Policy) :
    ∀ a ∈ (f.definition policy).arguments, a.Legible := by
  intro a ha
  obtain ⟨⟨n, p⟩, hz, rfl⟩ := List.mem_map.mp ha
  exact ⟨f.isName_argumentNames n (List.of_mem_zip hz).1, p.type.isTypeWord_sql⟩

theorem nodup_lower_argumentNames : (f.argumentNames.map Text.lower).Nodup :=
  (Name.nodup_claimAll .folded [] _).1

/-- The parameters, each with the name of its argument. -/
def boundParameters : List (Parameter × Text) :=
  f.parameters.zip f.argumentNames

theorem arguments_definition (policy : Name.Policy) : (f.definition policy).arguments =
    f.boundParameters.map fun (p, name) => ⟨name, p.type.sql⟩ := by
  rw [definition, boundParameters, ← List.zip_swap, List.map_map]
  rfl

theorem map_fst_boundParameters : f.boundParameters.map Prod.fst = f.parameters :=
  List.map_fst_zip (by simp)

theorem map_snd_boundParameters : f.boundParameters.map Prod.snd = f.argumentNames :=
  List.map_snd_zip (by simp)

/-- Each parameter stands with its own argument. -/
theorem zip_arguments (policy : Name.Policy) :
    f.parameters.zip (f.definition policy).arguments =
      f.boundParameters.map fun r => (r.1, ⟨r.2, r.1.type.sql⟩) := by
  conv_lhs => rw [← f.map_fst_boundParameters, arguments_definition]
  exact List.zip_map'

theorem argument_pathFilter : f.pathFilter.map (·.argument) =
    (f.boundParameters.filter (·.1.location == .path)).map Prod.snd := by
  have hnames : f.argumentNames = ((cleanAll "param" (f.parameters.map (·.name))).zip
      f.argumentNames).map Prod.snd := (List.map_snd_zip (by simp)).symm
  have hbound : f.boundParameters = (f.parameters.zip ((cleanAll "param"
      (f.parameters.map (·.name))).zip f.argumentNames)).map (Prod.map id Prod.snd) := by
    conv_lhs => rw [boundParameters, hnames]
    exact List.zip_map_right ..
  rw [hbound, List.filter_map, List.map_map, pathFilter, List.map_map]
  rfl

variable (policy : Name.Policy)

/-- Above the line that closes the body stands the last line of the last statement. -/
theorem getLast?_body {before : List Statement} {s : Statement} {line : Text}
    (hs : f.statements = before ++ [s]) (hline : s.lines.getLast? = some line) :
    (pieces (.char '\n') (f.sql policy)).dropLast.getLast? = some (indent ++ line) := by
  obtain ⟨lines, hlines⟩ := List.getLast?_eq_some_iff.mp hline
  rw [pieces_eq_lines]
  change ([_, _, _, _] ++ (f.statements.flatMap Statement.lines).map (indent ++ ·) ++
    [Text.ofString "$$;"]).dropLast.getLast? = _
  rw [List.dropLast_concat, hs, List.flatMap_append, List.flatMap_singleton, hlines,
    ← List.append_assoc, List.map_append, List.map_singleton, ← List.append_assoc,
    List.getLast?_concat]

theorem readTarget_updateTarget : ∃ line, f.updateTarget.lines.getLast? = some line ∧
    readTarget (indent ++ line) = if f.pathFilter.isEmpty then none else some f.pathFilter := by
  have hlegible := f.legible_of_mem_pathFilter
  unfold updateTarget
  cases hfilter : f.pathFilter with
  | nil =>
    have hsentence (s : Text) : (s ++ Text.ofString
        " has no path parameter identifying the row to update; no filter generated.").getLast? =
          some (.char '.') :=
      List.mem_getLast?_append_of_mem_getLast? (by decide)
    obtain ⟨line, hline, hlast⟩ :=
      getLast?_commentLines (hsentence _) (by decide) (by decide) (by decide)
    refine ⟨line, hline, ?_⟩
    rw [readTarget_eq_none (List.mem_getLast?_append_of_mem_getLast? hlast)]
    rfl
  | cons p ps =>
    rw [hfilter] at hlegible
    refine ⟨Text.ofString "-- " ++ ("Target rows: WHERE " ++ conjunction (p :: ps)), ?_, ?_⟩
    · rw [if_neg (by simp)]
      exact congrArg List.getLast? (commentLines_conjunction hlegible)
    · have hwords : Text.ofString "Target rows: WHERE " = "Target rows: " ++ "WHERE " := by
        simp [ofString, ofChars]
      have hopening :
          indent ++ (Text.ofString "-- " ++ "Target rows: ") = "  -- Target rows: " := by
        simp [indent, ofString, ofChars]
      rw [hwords, List.append_assoc (Text.ofString "Target rows: "), ← List.append_assoc,
        ← List.append_assoc, List.append_assoc indent, hopening]
      exact readTarget_conjunction hlegible

/-- The last line of a body picks out rows by the path parameters, where it does so at all. -/
theorem readRows_sql :
    (pieces (.char '\n') (f.sql policy)).dropLast.getLast?.bind (readRows f.method) =
      match f.method with
      | .get | .delete => some f.pathFilter
      | .put | .patch => if f.pathFilter.isEmpty then none else some f.pathFilter
      | .post | .head | .options | .trace => none := by
  have htable := f.isName_tableName
  have hlegible := f.legible_of_mem_pathFilter
  have hexecuted := f.statements_eq_append_executed
  obtain ⟨target, htarget, hread⟩ := f.readTarget_updateTarget
  cases hm : f.method with
  | get =>
    rw [executed, hm] at hexecuted
    rw [f.getLast?_body policy hexecuted rfl]
    have hopening : lexicon.lex "SELECT * FROM " =
        some [.word "SELECT", .sign (.char '*'), .word "FROM"] := by decide +kernel
    have hending : lexicon.lex ";" = some [.sign (.char ';')] := by decide +kernel
    exact readFilter_statement hopening (by decide) (by decide) hending (by decide) (by decide)
      htable hlegible
  | delete =>
    rw [executed, hm] at hexecuted
    have hlast : (Statement.delete f.tableName f.pathFilter f.responseBody.isSome).lines.getLast? =
        some ("DELETE FROM " ++ quote f.tableName ++ filterText f.pathFilter ++
          (returningText f.responseBody.isSome ++ ";")) := by
      rw [← List.append_assoc]
      rfl
    rw [f.getLast?_body policy hexecuted hlast]
    have hopening : lexicon.lex "DELETE FROM " = some [.word "DELETE", .word "FROM"] := by
      decide +kernel
    obtain ⟨rest, hrest, hending, hends⟩ := ends_returningText f.responseBody.isSome
    exact readFilter_statement hopening (by decide) (by decide) hending hends hrest htable hlegible
  | put | patch =>
    have hstatements : f.statements = [f.bodyPlaceholder] ++ [f.updateTarget] := by
      rw [statements, hm]
      rfl
    rw [f.getLast?_body policy hstatements htarget]
    exact hread
  | post | head | options | trace => exact Option.bind_fun_none _

/-- The arguments and the filter of a function are read back: an argument for each parameter, all
of them told apart, and a predicate for each path parameter that names its own argument. -/
theorem arguments_read : ∃ args : List Typed,
    (pieces (.char '\n') (f.sql policy)).head?.bind readSignature = some args ∧
    args.map (·.type) = f.parameters.map (fun p => Text.ofString p.type.sql) ∧
    args.map (·.name) = Name.claimAll .folded []
      ((cleanAll "param" (f.parameters.map (·.name))).map ("_" ++ ·)) ∧
    (∀ a ∈ args, IsName a.name) ∧ (args.map fun a => Text.lower a.name).Nodup ∧
    ∃ ps : List Predicate,
      ps.map (·.argument) =
        ((f.parameters.zip args).filter (·.1.location == .path)).map (·.2.name) ∧
      (pieces (.char '\n') (f.sql policy)).dropLast.getLast?.bind (readRows f.method) =
        match f.method with
        | .get | .delete => some ps
        | .put | .patch => if ps.isEmpty then none else some ps
        | .post | .head | .options | .trace => none := by
  have hnames : (f.definition policy).arguments.map (·.name) = f.argumentNames := by
    rw [arguments_definition, List.map_map]
    exact f.map_snd_boundParameters
  refine ⟨(f.definition policy).arguments, ?signature, ?types, hnames, ?names, ?apart,
    f.pathFilter, ?places, f.readRows_sql policy⟩
  case signature =>
    rw [pieces_eq_lines, lines_definition]
    exact readSignature_line (isName_ofFunction _) (f.legible_of_mem_arguments policy)
  case types =>
    conv_rhs => rw [← f.map_fst_boundParameters]
    rw [arguments_definition, List.map_map, List.map_map]
    rfl
  case names =>
    intro a ha
    exact (f.legible_of_mem_arguments policy a ha).1
  case apart =>
    have hlower := f.nodup_lower_argumentNames
    rw [← hnames, List.map_map] at hlower
    exact hlower
  case places =>
    rw [argument_pathFilter, zip_arguments, List.filter_map, List.map_map]
    rfl

end Endpoint
end ApiScaffold
