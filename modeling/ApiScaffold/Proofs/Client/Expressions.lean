import ApiScaffold.Client.Hook
import ApiScaffold.Proofs.Client.Identifiers

namespace ApiScaffold.Client
open Text
variable {t rest name : Text}

section Literals

/-- Characters that stand in no literal as they are. -/
def escaped : List Char :=
  ['\\', '\'', '\n', '\r', '\u2028', '\u2029']

/-- The text of a literal behind its opening quote, and what follows the closing one. No line break
stands in a literal. -/
def readQuoted : Text → Option (Text × Text)
  | .char '\'' :: rest => some ([], rest)
  | .char '\\' :: .char '\\' :: rest => (readQuoted rest).map (.map (.char '\\' :: ·) id)
  | .char '\\' :: .char '\'' :: rest => (readQuoted rest).map (.map (.char '\'' :: ·) id)
  | .char '\\' :: .char 'n' :: rest => (readQuoted rest).map (.map (.char '\n' :: ·) id)
  | .char '\\' :: .char 'r' :: rest => (readQuoted rest).map (.map (.char '\r' :: ·) id)
  | .char '\\' :: .char 'u' :: .char '2' :: .char '0' :: .char '2' :: .char '8' :: rest =>
    (readQuoted rest).map (.map (.char '\u2028' :: ·) id)
  | .char '\\' :: .char 'u' :: .char '2' :: .char '0' :: .char '2' :: .char '9' :: rest =>
    (readQuoted rest).map (.map (.char '\u2029' :: ·) id)
  | p :: rest =>
    if p.is (· ∈ escaped) then none else (readQuoted rest).map (.map (p :: ·) id)
  | [] => none

theorem readQuoted_cons_of_plain {p : CodePoint} (h : p.is (· ∈ escaped) = false) (t : Text) :
    readQuoted (p :: t) = (readQuoted t).map (.map (p :: ·) id) := by
  have hquote : p ≠ .char '\'' := by
    rintro rfl
    revert h
    decide
  have hslash : p ≠ .char '\\' := by
    rintro rfl
    revert h
    decide
  rw [readQuoted] <;> simp_all

theorem escapeChar_of_not_mem {c : Char} (h : c ∉ escaped) : escapeChar c = [c] := by
  simp only [escaped, List.mem_cons, not_or] at h
  unfold escapeChar
  split <;> simp_all

theorem readQuoted_escapeChar (c : Char) (t : Text) :
    readQuoted (ofChars (escapeChar c) ++ t) =
      (readQuoted t).map (.map (.char c :: ·) id) := by
  by_cases hc : c ∈ escaped
  · simp only [escaped, List.mem_cons, List.not_mem_nil, or_false] at hc
    rcases hc with rfl | rfl | rfl | rfl | rfl | rfl <;> rfl
  · rw [escapeChar_of_not_mem hc]
    exact readQuoted_cons_of_plain (by simpa [CodePoint.is] using hc) t

theorem readQuoted_flatMapChars (s rest : Text) :
    readQuoted (flatMapChars escapeChar s ++ .char '\'' :: rest) = some (s, rest) := by
  induction s with
  | nil => rfl
  | cons p s ih =>
    cases p with
    | surrogate n =>
      change readQuoted (.surrogate n :: (flatMapChars escapeChar s ++ _)) = _
      rw [readQuoted_cons_of_plain rfl, ih]
      rfl
    | char c =>
      change readQuoted (ofChars (escapeChar c) ++ flatMapChars escapeChar s ++ _) = _
      rw [List.append_assoc, readQuoted_escapeChar, ih]
      rfl

/-- No text is read as a literal but the one that is written. -/
theorem eq_of_readQuoted {s : Text} (h : readQuoted t = some (s, rest)) :
    t = flatMapChars escapeChar s ++ .char '\'' :: rest := by
  fun_induction readQuoted t generalizing s with
  | case1 =>
    cases h
    rfl
  | case8 => cases h
  | case10 => cases h
  | case9 p _ _ _ _ _ _ _ _ hp ih =>
    obtain ⟨⟨s, _⟩, hrest, he⟩ := Option.map_eq_some_iff.mp h
    cases he
    rw [ih hrest]
    cases p with
    | surrogate n => rfl
    | char c =>
      have hself : escapeChar c = [c] :=
        escapeChar_of_not_mem (by simpa [CodePoint.is] using hp)
      simp [flatMapChars, hself, ofChars]
  | _ _ ih =>
    -- Each of the other cases is one escape.
    obtain ⟨⟨s, _⟩, hrest, he⟩ := Option.map_eq_some_iff.mp h
    cases he
    rw [ih hrest]
    rfl

theorem literal_eq (s : Text) :
    literal s = .char '\'' :: (flatMapChars escapeChar s ++ [.char '\'']) :=
  rfl

theorem literal_injective {s t : Text} (h : literal s = literal t) : s = t := by
  rw [literal_eq, literal_eq, List.cons.injEq] at h
  have hread := congrArg readQuoted h.2
  rw [readQuoted_flatMapChars, readQuoted_flatMapChars] at hread
  exact congrArg Prod.fst (Option.some.inj hread)

end Literals

section Members

/-- The member that is read for a name: a line feed behind a name without quotes is none of it. -/
def accessed (name : Text) : Text :=
  if isName name then name.takeWhile (·.is isNamePart) else name

theorem takeWhile_name (h : IsIdentifier name) (rest : Text)
    (hrest : ∀ p ∈ rest.head?, p.is isNamePart = false) :
    (name ++ rest).takeWhile (·.is isNamePart) = name := by
  rw [List.takeWhile_append_of_pos h.word.2]
  cases rest with
  | nil => simp
  | cons p rest => simp [hrest p rfl]

theorem accessed_of_isIdentifier (h : IsIdentifier name) : accessed name = name := by
  have htake := takeWhile_name h [] (by simp)
  rw [List.append_nil] at htake
  rw [accessed, if_pos (isName_iff.mpr (.inl h)), htake]

theorem accessed_lineFeed (h : IsIdentifier name) : accessed (name ++ [.char '\n']) = name := by
  rw [accessed, if_pos (isName_iff.mpr (.inr ⟨name, h, rfl⟩))]
  exact takeWhile_name h _ (by decide)

theorem accessed_of_not_isName (h : isName name = false) : accessed name = name := by
  simp [accessed, h]

theorem accessed_accessed (name : Text) : accessed (accessed name) = accessed name := by
  cases h : isName name with
  | false => rw [accessed_of_not_isName h, accessed_of_not_isName h]
  | true =>
    rcases isName_iff.mp h with hname | ⟨word, hword, rfl⟩
    · rw [accessed_of_isIdentifier hname, accessed_of_isIdentifier hname]
    · rw [accessed_lineFeed hword, accessed_of_isIdentifier hword]

theorem accessed_eq_self_iff :
    accessed name = name ↔ ∀ word, IsIdentifier word → name ≠ word ++ [.char '\n'] := by
  constructor
  · rintro h word hword rfl
    rw [accessed_lineFeed hword] at h
    simp at h
  · intro h
    cases hname : isName name with
    | false => exact accessed_of_not_isName hname
    | true =>
      rcases isName_iff.mp hname with hself | ⟨word, hword, he⟩
      · exact accessed_of_isIdentifier hself
      · exact absurd he (h word hword)

theorem member_injective {object s t : Text} (h : member object s = member object t) : s = t := by
  have hforms (a b : Text) : object ++ ofString "." ++ a ≠ object ++ ofString "[" ++ b := by
    rw [List.append_assoc, List.append_assoc]
    intro he
    cases List.append_cancel_left he
  unfold member at h
  split at h <;> split at h
  · exact List.append_cancel_left h
  · rw [List.append_assoc _ (literal t)] at h
    exact absurd h (hforms _ _)
  · rw [List.append_assoc _ (literal s)] at h
    exact absurd h.symm (hforms _ _)
  · exact literal_injective (List.append_cancel_left (List.append_cancel_right h))

end Members

section Reading

/-- The literal between two texts; blanks behind it mean nothing. -/
def readBetween (before after t : Text) : Option Text := do
  let body ← t.dropPrefix? (before ++ "'")
  let (s, rest) ← readQuoted body
  let gap ← rest.dropPrefix? after
  if gap.all (·.is Char.isWhitespace) then some s else none

/-- The name behind a dot, as far as an identifier goes. -/
def readDotted (t : Text) : Option Text := do
  let rest ← t.dropPrefix? "params."
  let name := rest.takeWhile (·.is isNamePart)
  if IsIdentifier name ∧ (rest.drop name.length).all (·.is Char.isWhitespace) then some name
  else none

/-- What an expression of a query key stands for. -/
def readExpression (t : Text) : Option Value :=
  ((readBetween "" "" t).map .text).or <|
    ((readBetween "params[" "]" t).map .param).or ((readDotted t).map .param)

theorem readBetween_literal (before after s : Text) :
    readBetween before after (before ++ (literal s ++ after)) = some s := by
  have hopening : before ++ (literal s ++ after) =
      (before ++ "'") ++ (flatMapChars escapeChar s ++ .char '\'' :: after) := by
    simp [literal_eq, ofString, ofChars]
  have hclosing : after.dropPrefix? after = some [] :=
    List.dropPrefix?_eq_some_iff.mpr ⟨after, (List.append_nil after).symm, BEq.rfl⟩
  rw [readBetween, hopening, List.dropPrefix?_append_of_beq _ BEq.rfl]
  simp [readQuoted_flatMapChars, hclosing]

/-- An expression that does not open like this is read otherwise. -/
theorem readBetween_eq_none {before after : Text} (h : t.dropPrefix? (before ++ "'") = none) :
    readBetween before after t = none := by
  rw [readBetween, h]
  rfl

theorem readExpression_literal (s : Text) : readExpression (literal s) = some (.text s) := by
  have hread := readBetween_literal "" "" s
  have hself : ofString "" ++ (literal s ++ ofString "") = literal s := List.append_nil (literal s)
  rw [hself] at hread
  rw [readExpression, hread]
  rfl

theorem readExpression_quoted (s : Text) :
    readExpression (ofString "params[" ++ (literal s ++ ofString "]")) = some (.param s) := by
  have hfirst : readBetween "" "" (ofString "params[" ++ (literal s ++ ofString "]")) = none :=
    readBetween_eq_none rfl
  rw [readExpression, hfirst, readBetween_literal]
  rfl

theorem readExpression_dotted (h : IsIdentifier name) (rest : Text)
    (hrest : ∀ p ∈ rest.head?, p.is isNamePart = false)
    (hgap : rest.all (·.is Char.isWhitespace) = true) :
    readExpression (ofString "params." ++ (name ++ rest)) = some (.param name) := by
  have hfirst : readBetween "" "" (ofString "params." ++ (name ++ rest)) = none :=
    readBetween_eq_none rfl
  have hsecond : readBetween "params[" "]" (ofString "params." ++ (name ++ rest)) = none :=
    readBetween_eq_none rfl
  have hname : readDotted (ofString "params." ++ (name ++ rest)) = some name := by
    rw [readDotted, List.dropPrefix?_append_of_beq _ BEq.rfl]
    simpa [takeWhile_name h rest hrest, h] using hgap
  rw [readExpression, hfirst, hsecond, hname]
  rfl

theorem readExpression_member (name : Text) :
    readExpression (member "params" name) = some (.param (accessed name)) := by
  cases hname : isName name with
  | false =>
    have hquoted : member "params" name = ofString "params[" ++ (literal name ++ ofString "]") := by
      simp [member, hname, ofString, ofChars]
    rw [hquoted, readExpression_quoted, accessed_of_not_isName hname]
  | true =>
    have hdotted : member "params" name = ofString "params." ++ name := by
      simp [member, hname, ofString, ofChars]
    rw [hdotted]
    rcases isName_iff.mp hname with hself | ⟨word, hword, rfl⟩
    · have hread := readExpression_dotted hself [] (by simp) rfl
      rwa [List.append_nil, ← congrArg Value.param (accessed_of_isIdentifier hself)] at hread
    · rw [accessed_lineFeed hword]
      exact readExpression_dotted hword _ (by decide) (by decide)

/-- The value that stands behind the expression written for it. -/
def Value.read : Value → Value
  | text s => text s
  | param name => param (accessed name)

theorem readExpression_code (v : Value) : readExpression v.code = some v.read := by
  cases v with
  | text s => exact readExpression_literal s
  | param name => exact readExpression_member name

end Reading

end ApiScaffold.Client
