import ApiScaffold.Proofs.Client.Literals
import ApiScaffold.Proofs.Client.Templates
import ApiScaffold.Proofs.Text.Pieces

namespace ApiScaffold.Client.Part
open Text
variable {p : CodePoint} {pending text code s t first : Text} {parts : List Part}
  {more : List Text}

section Passes

/-- Escapes a text in three passes, each of them over what the passes before have written. -/
def escapeInPasses (t : Text) : Text :=
  replacePair (.char '$') (.char '{') "\\$\x7b"
    (replaceChar '\x60' "\\\x60" (replaceChar '\\' "\\\\" t))

/-- What the first two passes write for a code point. -/
def guarded (p : CodePoint) : Text :=
  if p.is (· ∈ ['\\', '\x60']) then [.char '\\', p] else [p]

theorem replaceChar_replaceChar (t : Text) :
    replaceChar '\x60' "\\\x60" (replaceChar '\\' "\\\\" t) = t.flatMap guarded := by
  rw [replaceChar, replaceChar, List.flatMap_assoc]
  congr 1
  funext p
  by_cases hslash : p = .char '\\'
  · subst hslash
    rfl
  · by_cases htick : p = .char '\x60'
    · subst htick
      rfl
    · cases p with
      | surrogate n => rfl
      | char c => simp_all [guarded, CodePoint.is]

theorem head?_flatMap_guarded (h : t.head? ≠ some (.char '{')) :
    (t.flatMap guarded).head? ≠ some (.char '{') := by
  cases t with
  | nil => simp
  | cons p t =>
    rw [List.flatMap_cons, guarded]
    split
    · simp
    · simpa using h

/-- No pass rewrites what a pass before has written. -/
theorem escapeInPasses_eq (t : Text) : escapeInPasses t = escapeText t := by
  rw [escapeInPasses, replaceChar_replaceChar]
  fun_induction escapeText t with
  | case1 t ih =>
    rw [← ih]
    rfl
  | case2 p t hno ih =>
    have hseam : p = .char '$' → (t.flatMap guarded).head? ≠ some (.char '{') := by
      intro hp
      apply head?_flatMap_guarded
      intro ht
      obtain ⟨more, rfl⟩ := List.head?_eq_some_iff.mp ht
      exact hno more hp rfl
    have hpair : replacePair (.char '$') (.char '{') "\\$\x7b" (p :: t.flatMap guarded) =
        p :: escapeText t := by
      rw [replacePair_cons hseam, ih]
    rw [List.flatMap_cons, guarded]
    split
    · rw [List.cons_append, List.singleton_append, replacePair_cons (by simp), hpair]
      rfl
    · exact hpair
  | case3 => rfl

end Passes

section Turns

/-- The code of an expression. -/
def code? : Part → Option Text
  | .text _ => none
  | .expression code => some code

/-- The words of a text. -/
def wording : Part → Text
  | .text s => s
  | .expression _ => []

/-- The expressions of a template in their order. -/
def codes (parts : List Part) : List Text :=
  parts.filterMap code?

/-- What stands before, between and after the expressions, each the texts there put together. -/
def gaps (parts : List Part) : List Text :=
  (parts.splitOnP fun part => part.code?.isSome).map fun run => run.flatMap wording

/-- Texts and expressions by turns, from a text to a text. -/
def byTurns : List Text → List Text → List Part
  | s :: texts, code :: codes => .text s :: .expression code :: byTurns texts codes
  | texts, _ => texts.map .text

theorem gaps_text (s : Text) (parts : List Part) :
    gaps (.text s :: parts) = (gaps parts).modifyHead (s ++ ·) := by
  obtain ⟨run, runs, h⟩ := List.exists_cons_of_ne_nil
    (List.splitOnP_ne_nil (fun part : Part => part.code?.isSome) parts)
  rw [gaps, gaps, List.splitOnP_cons_eq_if_modifyHead, h]
  rfl

theorem gaps_expression (code : Text) (parts : List Part) :
    gaps (.expression code :: parts) = [] :: gaps parts := by
  rw [gaps, List.splitOnP_cons_eq_if_modifyHead]
  rfl

theorem exists_gaps (parts : List Part) : ∃ first more, gaps parts = first :: more := by
  obtain ⟨run, runs, h⟩ := List.exists_cons_of_ne_nil
    (List.splitOnP_ne_nil (fun part : Part => part.code?.isSome) parts)
  exact ⟨run.flatMap wording, runs.map (·.flatMap wording), by rw [gaps, h, List.map_cons]⟩

/-- The pieces that are read back are the gaps and the expressions by turns. -/
theorem gather_eq_byTurns (h : gaps parts = first :: more) (pending : Text) :
    gather pending parts = byTurns ((pending ++ first) :: more) (codes parts) := by
  induction parts generalizing first more pending with
  | nil =>
    obtain ⟨rfl, rfl⟩ := List.cons.inj h
    simp [gather, codes, byTurns]
  | cons part parts ih =>
    obtain ⟨next, others, hparts⟩ := exists_gaps parts
    cases part with
    | text s =>
      rw [gaps_text, hparts, List.modifyHead_cons] at h
      obtain ⟨rfl, rfl⟩ := List.cons.inj h
      rw [gather, ih hparts, List.append_assoc]
      rfl
    | expression code =>
      rw [gaps_expression, hparts] at h
      obtain ⟨rfl, rfl⟩ := List.cons.inj h
      rw [gather, ih hparts, List.append_nil]
      rfl

theorem length_gaps (parts : List Part) : (gaps parts).length = (codes parts).length + 1 := by
  induction parts with
  | nil => rfl
  | cons part parts ih =>
    cases part with
    | text s =>
      rw [gaps_text, List.length_modifyHead, ih]
      rfl
    | expression code =>
      rw [gaps_expression, List.length_cons, ih]
      rfl

end Turns

section Splitting

theorem write_map_text (pieces : List Text) (pending : Text) (after : List Part) :
    write pending (pieces.map .text ++ after) = write (pending ++ pieces.flatten) after := by
  induction pieces generalizing pending with
  | nil => simp
  | cons s pieces ih => simp [write, ih]

theorem write_append_congr {others : List Part} (before : List Part)
    (h : ∀ pending, write pending parts = write pending others) (pending : Text) :
    write pending (before ++ parts) = write pending (before ++ others) := by
  induction before generalizing pending with
  | nil => exact h pending
  | cons part before ih =>
    cases part with
    | text s => exact ih _
    | expression code => simp [write, ih]

/-- A text may be written in pieces. -/
theorem template_split (before : List Part) (pieces : List Text) (after : List Part) :
    template (before ++ pieces.map .text ++ after) =
      template (before ++ .text pieces.flatten :: after) := by
  have hwritten (pending : Text) : write pending (pieces.map .text ++ after) =
      write pending (.text pieces.flatten :: after) := by
    rw [write_map_text, write]
  rw [template, template, List.append_assoc before, write_append_congr before hwritten]

theorem mem_codes : code ∈ codes parts ↔ .expression code ∈ parts := by
  simp only [codes, List.mem_filterMap]
  constructor
  · intro ⟨part, hpart, hcode⟩
    cases part with
    | text s => cases hcode
    | expression c =>
      obtain rfl := Option.some.inj hcode
      exact hpart
  · intro h
    exact ⟨.expression code, h, rfl⟩

/-- A template literal is read to its end, as its expressions in their order and the texts around
them. What the passes write opens no expression and ends no literal, and it does not matter into
which pieces a text is cut. -/
theorem readTemplate_byTurns (h : ∀ code ∈ codes parts, .char '}' ∉ code) :
    readTemplate (template parts) = some (byTurns (gaps parts) (codes parts), []) ∧
      (gaps parts).length = (codes parts).length + 1 ∧
      (∀ s, escapeText s = escapeInPasses s) ∧
      ∀ (before : List Part) (pieces : List Text) (after : List Part),
        template (before ++ pieces.map .text ++ after) =
          template (before ++ .text pieces.flatten :: after) := by
  obtain ⟨first, more, hgaps⟩ := exists_gaps parts
  refine ⟨?_, length_gaps parts, fun s => (escapeInPasses_eq s).symm, template_split⟩
  rw [readTemplate_template fun code hm => h code (mem_codes.mpr hm), gather_eq_byTurns hgaps,
    hgaps, List.nil_append]

/-- A dollar sign ends a text before a brace, and another one stands before an expression. -/
theorem readTemplate_byTurns_dollars :
    readTemplate (template [.text "$", .text "\x7b\x60\\$", .expression "id", .text "$"]) =
      some ([.text "$\x7b\x60\\$", .expression "id", .text "$"], []) := by
  let parts : List Part :=
    [.text "$", .text "\x7b\x60\\$", .expression "id", .text "$"]
  have hcodes : ∀ code ∈ codes parts, .char '}' ∉ code := by decide
  rw [(readTemplate_byTurns hcodes).1]
  rfl

end Splitting
end ApiScaffold.Client.Part
