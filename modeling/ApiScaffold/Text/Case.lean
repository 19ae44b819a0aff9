import ApiScaffold.Text.Basic
import ApiScaffold.Text.CaseTable

namespace ApiScaffold.Text
open CaseTable

def isUpper (c : Char) : Bool :=
  if c.toNat < 128 then 'A' ≤ c && c ≤ 'Z' else Run.covers upperLetters c.toNat

/-- The upper case form of a character, which may be several characters long. -/
def upperForm (c : Char) : List Char :=
  if c.toNat < 128 then [if 'a' ≤ c && c ≤ 'z' then Char.ofNat (c.toNat - 32) else c]
  else
    match longUpper.find? (·.1 == c.toNat) with
    | some (_, form) => form.map Char.ofNat
    | none => [Char.ofNat ((Shift.image? toUpper c.toNat).getD c.toNat)]

/-- The lower case form of a character that is not a capital sigma. Only the dotted capital I
has a form of two characters. -/
def lowerForm (c : Char) : List Char :=
  if c.toNat < 128 then [if 'A' ≤ c && c ≤ 'Z' then Char.ofNat (c.toNat + 32) else c]
  else if c = '\u0130' then ['i', '\u0307']
  else [Char.ofNat ((Shift.image? toLower c.toNat).getD c.toNat)]

/-- Whether the first character that is not passed over is a letter with case. -/
def meetsCased (t : Text) : Bool :=
  match t.dropWhile fun p => Run.covers caseIgnorable p.toNat with
  | [] => false
  | p :: _ => Run.covers casedLetters p.toNat

/-- Sigma takes its final form at the end of a word, so it looks at the text on both sides;
`before` is what precedes, nearest character first. -/
def lowerAfter (before : Text) : Text → Text
  | [] => []
  | .char c :: rest =>
    ofChars
      (if c = 'Σ' then [if meetsCased before && !(meetsCased rest) then 'ς' else 'σ']
        else lowerForm c) ++ lowerAfter (c :: before) rest
  | p :: rest => p :: lowerAfter (p :: before) rest

def lower (t : Text) : Text :=
  lowerAfter [] t

end ApiScaffold.Text
