import ApiScaffold.Proofs.Name.Cleaned
import ApiScaffold.Proofs.Sql.Letters
import ApiScaffold.Proofs.Text.Lexemes

namespace ApiScaffold
open Text

namespace Sql
variable {t s rest name type : Text}

/-- What words are made of: names, and types with array markers behind them. -/
def isWordChar (c : Char) : Bool :=
  Identifier.isPart c || c == '[' || c == ']'

/-- The text up to the next double quote, and what follows it. -/
def readQuotedName : Text → Option (Text × Text)
  | [] => none
  | p :: t => if p = .char '"' then some ([], t) else (readQuotedName t).map (.map (p :: ·) id)

theorem readQuotedName_append (hs : .char '"' ∉ s) (rest : Text) :
    readQuotedName (s ++ .char '"' :: rest) = some (s, rest) := by
  induction s with
  | nil => rfl
  | cons p s ih =>
    simp only [List.mem_cons, not_or] at hs
    rw [List.cons_append, readQuotedName, if_neg (Ne.symm hs.1), ih hs.2]
    rfl

theorem eq_of_readQuotedName (h : readQuotedName t = some (s, rest)) :
    t = s ++ .char '"' :: rest ∧ .char '"' ∉ s := by
  fun_induction readQuotedName t generalizing s with
  | case1 => cases h
  | case2 =>
    cases h
    simp
  | case3 p t hp ih =>
    obtain ⟨⟨s, _⟩, hrest, he⟩ := Option.map_eq_some_iff.mp h
    cases he
    obtain ⟨ht, hs⟩ := ih hrest
    simp [ht, hs, Ne.symm hp]

/-- The code of a database: words, and names between double quotes. -/
def lexicon : Lexicon where
  isPart := isWordChar
  quote := '"'
  unquote := readQuotedName
  isPart_quote := by decide
  splits h := ⟨_, (eq_of_readQuotedName h).1⟩
  unquote_append more h := by
    obtain ⟨rfl, hs⟩ := eq_of_readQuotedName h
    rw [List.append_assoc]
    exact readQuotedName_append hs _

/-- The name that stands for itself; a keyword does so between quotes only. -/
def nameOf? : Lexeme → Option Text
  | .word t => if isKeyword t then none else some t
  | .quoted t => some t
  | .sign _ => none

/-- How a name is read. -/
def nameLexeme (name : Text) : Lexeme :=
  if isKeyword name then .quoted name else .word name

@[simp] theorem nameOf?_nameLexeme (name : Text) : nameOf? (nameLexeme name) = some name := by
  unfold nameLexeme
  split
  · rfl
  · rename_i hname
    exact if_neg hname

theorem lex_word (hne : t ≠ []) (h : Over isWordChar t) : lexicon.lex t = some [.word t] :=
  Lexicon.lex_of_over hne h

theorem over_isWordChar (h : Over Identifier.isPart t) : Over isWordChar t :=
  h.mono fun c hc => by simp [Sql.isWordChar, hc]

theorem lex_quote (h : Identifier.IsName name) :
    lexicon.lex (quote name) = some [nameLexeme name] := by
  unfold quote nameLexeme
  split
  · have hread : lexicon.unquote (name ++ [.char '"']) = some (name, []) :=
      readQuotedName_append (h.parts.not_mem (by decide)) []
    have hquoted := Lexicon.lex_quoted hread
    rw [Lexicon.lex_nil] at hquoted
    exact hquoted
  · obtain ⟨p, hp, -⟩ := h.opens
    exact lex_word (List.ne_nil_of_mem (List.mem_of_mem_head? hp)) (over_isWordChar h.parts)

/-- Items with commas between them. -/
theorem lex_joined_comma {α : Type} {text : α → Text} {read : α → List Lexeme} {a : α}
    {as : List α} (h : ∀ b ∈ a :: as, lexicon.lex (text b) = some (read b)) :
    lexicon.lex (joined ", " ((a :: as).map text)) =
      some (read a ++ as.flatMap fun b => .sign (.char ',') :: read b) := by
  have hcomma : lexicon.lex ", " = some [.sign (.char ',')] := by decide +kernel
  have hstands : lexicon.Stands ", " := by decide
  exact Lexicon.lex_joined_map hcomma hstands h

/-- A type that is read as one word. -/
structure IsTypeWord (type : Text) : Prop where
  ne_nil : type ≠ []
  parts : Over isWordChar type

/-- A name with its type is read as two words. -/
theorem lex_typed (hname : Identifier.IsName name) (htype : IsTypeWord type) :
    lexicon.lex (quote name ++ " " ++ type) = some [nameLexeme name, .word type] := by
  have hblank : lexicon.lex " " = some [] := by decide +kernel
  have hstands : lexicon.Stands " " := by decide
  have hquote := Lexicon.lex_append_eq_some (lex_quote hname) hblank
    (Lexicon.apart_of_head hstands.head)
  exact Lexicon.lex_append_eq_some hquote (lex_word htype.ne_nil htype.parts) hstands.append_apart

end Sql

open Sql

/-- A type is one word, its array markers with it. -/
theorem DataType.isTypeWord_sql (t : DataType) : IsTypeWord t.sql := by
  have hwords : ∀ w ∈ sqlWords, w ≠ [] ∧ Over isWordChar w := by decide
  refine t.sql_induction (fun w hw => ⟨(hwords w hw).1, (hwords w hw).2⟩) fun x h => ?_
  exact ⟨List.append_ne_nil_of_left_ne_nil h.ne_nil _, h.parts.append (by decide)⟩

end ApiScaffold
