namespace ApiScaffold

/-- A character, or one of the numbers that only pairs of 16-bit units are made of. An escape can
name such a half alone, so a text can hold it, but no encoded file can. -/
inductive CodePoint where
  | char (c : Char)
  | surrogate (n : Fin 2048)
  deriving DecidableEq, Repr

instance : Coe Char CodePoint := ⟨.char⟩

namespace CodePoint

def toNat : CodePoint → Nat
  | char c => c.toNat
  | surrogate n => 0xd800 + n

/-- The code point of a number below `0x110000`. -/
def ofNat (n : Nat) : CodePoint :=
  if h : 0xd800 ≤ n ∧ n < 0xe000 then surrogate ⟨n - 0xd800, by omega⟩ else char (Char.ofNat n)

def char? : CodePoint → Option Char
  | char c => some c
  | surrogate _ => none

/-- The character, and NUL for what is none. -/
def charOrNul : CodePoint → Char
  | char c => c
  | surrogate _ => '\x00'

/-- Whether it is a character of a class. -/
def is (p : Char → Bool) : CodePoint → Bool
  | char c => p c
  | surrogate _ => false

/-- Changes a character; what is none stays. -/
def map (f : Char → Char) : CodePoint → CodePoint
  | char c => char (f c)
  | p => p

end CodePoint

/-- A text is a list of code points, so two halves of a pair stay two. -/
abbrev Text := List CodePoint

namespace Text

def ofChars (s : List Char) : Text :=
  s.map .char

def ofString (s : String) : Text :=
  ofChars s.toList

instance : Coe String Text := ⟨ofString⟩

instance : LawfulBEq Text := inferInstance

/-- The characters of a text that holds nothing else. -/
def chars? (t : Text) : Option (List Char) :=
  t.mapM CodePoint.char?

def string? (t : Text) : Option String :=
  (chars? t).map String.ofList

/-- Spells each character by a text of its own; what is no character stays. -/
def flatMapChars (f : Char → List Char) (t : Text) : Text :=
  t.flatMap fun
    | .char c => ofChars (f c)
    | p => [p]

/-- Puts a text between others. -/
def joined (between : Text) (ts : List Text) : Text :=
  between.intercalate ts

@[simp] theorem chars?_ofChars (s : List Char) : chars? (ofChars s) = some s := by
  induction s with
  | nil => rfl
  | cons c rest ih =>
    have h : chars? (ofChars rest) = some rest := ih
    simp only [chars?, ofChars, List.map_cons, List.mapM_cons] at h ⊢
    simp [CodePoint.char?, h]

end Text
end ApiScaffold
