import ApiScaffold.Client.Template

namespace ApiScaffold.Client
namespace Part
variable {p : CodePoint} {text code s rest : Text} {parts : List Part}

section Reading

mutual

/-- The pieces of a template literal, read on from within a text, and what follows the closing
backtick. A backslash takes the next character as it stands, a dollar sign and a brace open an
expression. -/
def readText (text : Text) : Text → Option (List Part × Text)
  | .char '`' :: rest => some ([.text text], rest)
  | .char '\\' :: p :: rest => readText (text ++ [p]) rest
  | .char '$' :: .char '{' :: rest => (readCode [] rest).map (.map (.text text :: ·) id)
  | p :: rest => readText (text ++ [p]) rest
  | [] => none

/-- An expression ends at the next brace. -/
def readCode (code : Text) : Text → Option (List Part × Text)
  | .char '}' :: rest => (readText [] rest).map (.map (.expression code :: ·) id)
  | p :: rest => readCode (code ++ [p]) rest
  | [] => none

end

/-- Reads a template literal from its opening backtick on. -/
def readTemplate : Text → Option (List Part × Text)
  | .char '`' :: rest => readText [] rest
  | _ => none

theorem readText_backslash :
    readText text (.char '\\' :: p :: rest) = readText (text ++ [p]) rest := by
  rw [readText]

theorem readText_dollar_brace :
    readText text (.char '$' :: .char '{' :: rest) =
      (readCode [] rest).map (.map (.text text :: ·) id) := by
  rw [readText]

theorem readText_cons_of_plain (hquote : p ≠ .char '`') (hslash : p ≠ .char '\\')
    (hdollar : p = .char '$' → rest.head? ≠ some (.char '{')) :
    readText text (p :: rest) = readText (text ++ [p]) rest := by
  rw [readText]
  · exact hquote
  · exact fun _ _ he => absurd he hslash
  · rintro more he rfl
    exact hdollar he rfl

theorem readCode_append (h : .char '}' ∉ s) :
    readCode code (s ++ .char '}' :: rest) =
      (readText [] rest).map (.map (.expression (code ++ s) :: ·) id) := by
  induction s generalizing code with
  | nil => rw [List.nil_append, readCode, List.append_nil]
  | cons p s ih =>
    have hp : p ≠ .char '}' := fun he => h (he ▸ List.mem_cons_self)
    have hs : .char '}' ∉ s := fun hm => h (List.mem_cons_of_mem _ hm)
    rw [List.cons_append, readCode, ih hs, List.append_assoc, List.singleton_append]
    exact hp

end Reading

section Escaping

/-- Escaping puts no brace in front. -/
theorem head?_escapeText (h : s.head? ≠ some (.char '{')) :
    (escapeText s).head? ≠ some (.char '{') := by
  fun_cases escapeText s with
  | case1 s => simp [Text.ofString, Text.ofChars]
  | case2 p s hno =>
    split
    · simp
    · exact h
  | case3 => exact h

/-- What is escaped is read back as it was, whatever it holds. -/
theorem readText_escapeText (hrest : rest.head? ≠ some (.char '{')) (text s : Text) :
    readText text (escapeText s ++ rest) = readText (text ++ s) rest := by
  fun_induction escapeText s generalizing text with
  | case1 s ih =>
    change readText text (.char '\\' :: .char '$' :: .char '{' :: (escapeText s ++ rest)) = _
    rw [readText_backslash, readText_cons_of_plain (by decide) (by decide), ih]
    · simp
    · intro h
      cases h
  | case2 p s hno ih =>
    have hseam : p = .char '$' → (escapeText s ++ rest).head? ≠ some (.char '{') := by
      intro hp
      have hs : s.head? ≠ some (.char '{') := by
        rintro hs
        obtain ⟨more, rfl⟩ := List.head?_eq_some_iff.mp hs
        exact hno more hp rfl
      rw [List.head?_append, ne_eq, Option.or_eq_some_iff, not_or]
      exact ⟨head?_escapeText hs, fun he => hrest he.2⟩
    split
    · change readText text (.char '\\' :: p :: (escapeText s ++ rest)) = _
      rw [readText_backslash, ih]
      simp
    · rename_i hplain
      change readText text (p :: (escapeText s ++ rest)) = _
      rw [readText_cons_of_plain _ _ hseam, ih]
      · simp
      · rintro rfl
        exact hplain (by decide)
      · rintro rfl
        exact hplain (by decide)
  | case3 => simp

end Escaping

section Writing

/-- Neighbouring texts are one piece, and there is a text, maybe an empty one, between expressions
and at both ends. -/
def gather (pending : Text) : List Part → List Part
  | [] => [.text pending]
  | .text s :: rest => gather (pending ++ s) rest
  | .expression code :: rest => .text pending :: .expression code :: gather [] rest

theorem readText_write (h : ∀ code, .expression code ∈ parts → .char '}' ∉ code)
    (text pending : Text) :
    readText text (write pending parts ++ .char '`' :: rest) =
      some (gather (text ++ pending) parts, rest) := by
  induction parts generalizing text pending with
  | nil =>
    rw [write, readText_escapeText (by simp), readText]
    rfl
  | cons part parts ih =>
    have hparts := ih fun code hm => h code (List.mem_cons_of_mem _ hm)
    cases part with
    | text s => rw [write, hparts, gather, List.append_assoc]
    | expression code =>
      have hcode := h code List.mem_cons_self
      have hwritten : write pending (.expression code :: parts) ++ .char '`' :: rest =
          escapeText pending ++ .char '$' :: .char '{' ::
            (code ++ .char '}' :: (write [] parts ++ .char '`' :: rest)) := by
        rw [write]
        simp [Text.ofString, Text.ofChars]
      rw [hwritten, readText_escapeText (by simp), readText_dollar_brace, readCode_append hcode,
        hparts]
      rfl

/-- A template literal is read back to its end, in the pieces that it was written from. -/
theorem readTemplate_template (h : ∀ code, .expression code ∈ parts → .char '}' ∉ code) :
    readTemplate (template parts) = some (gather [] parts, []) := by
  have htemplate : template parts = .char '`' :: (write [] parts ++ [.char '`']) := by
    simp [template, Text.ofString, Text.ofChars]
  rw [htemplate]
  exact readText_write h [] []

example : readTemplate "\x60/a\\$\x7bb\x7d/$\x7bid\x7d\x60" =
    some ([.text "/a$\x7bb\x7d/", .expression "id", .text ""], []) := by decide

end Writing

end Part
end ApiScaffold.Client
