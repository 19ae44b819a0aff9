import ApiScaffold.Number.Numeral
import ApiScaffold.Tree

namespace ApiScaffold.Json

def isSpace (c : Char) : Bool :=
  c == ' ' || c == '\t' || c == '\n' || c == '\r'

def skipSpace (s : List Char) : List Char :=
  s.dropWhile isSpace

def hexValue? (c : Char) : Option Nat :=
  if '0' ≤ c ∧ c ≤ '9' then some (c.toNat - 48)
  else if 'a' ≤ c ∧ c ≤ 'f' then some (c.toNat - 87)
  else if 'A' ≤ c ∧ c ≤ 'F' then some (c.toNat - 55)
  else none

def hex4? (a b c d : Char) : Option Nat := do
  let a ← hexValue? a
  let b ← hexValue? b
  let c ← hexValue? c
  let d ← hexValue? d
  some (((a * 16 + b) * 16 + c) * 16 + d)

/-- Puts a code point in front of a text. Two halves of a pair are the character that they stand
for together. -/
def putPoint : CodePoint → Text → Text
  | .surrogate high, .surrogate low :: rest =>
    if high.val < 0x400 ∧ 0x400 ≤ low.val then
      .char (Char.ofNat (0x10000 + high.val * 0x400 + (low.val - 0x400))) :: rest
    else .surrogate high :: .surrogate low :: rest
  | p, rest => p :: rest

/-- What a letter after a backslash stands for. -/
def escaped? : Char → Option Char
  | '"' => some '"'
  | '\\' => some '\\'
  | '/' => some '/'
  | 'b' => some '\x08'
  | 'f' => some '\x0c'
  | 'n' => some '\n'
  | 'r' => some '\r'
  | 't' => some '\t'
  | _ => none

/-- A text after its opening quote, and what follows the closing one. -/
def readText : List Char → Option (Text × List Char)
  | [] => none
  | '"' :: rest => some ([], rest)
  | '\\' :: 'u' :: a :: b :: c :: d :: rest => do
    let n ← hex4? a b c d
    let (text, rest) ← readText rest
    some (putPoint (.ofNat n) text, rest)
  | '\\' :: c :: rest => do
    let e ← escaped? c
    let (text, rest) ← readText rest
    some (.char e :: text, rest)
  | c :: rest =>
    if c = '\\' ∨ c.toNat < 32 then none
    else do
      let (text, rest) ← readText rest
      some (.char c :: text, rest)

def isNumberChar (c : Char) : Bool :=
  c.isDigit || c == '-' || c == '+' || c == '.' || c == 'e' || c == 'E'

/-- Whether digits have no needless zero in front. -/
def isWhole : List Char → Bool
  | ['0'] => true
  | '0' :: _ => false
  | [] => false
  | s => s.all Char.isDigit

def unsignedNumber? (negative : Bool) (s : List Char) : Option Tree :=
  let whole := s.takeWhile Char.isDigit
  let rest := s.dropWhile Char.isDigit
  if isWhole whole then
    match rest with
    | [] =>
      let n : Int := Numeral.ofDigits (whole.map fun c => c.toNat - 48)
      some (.int (if negative then -n else n))
    | '.' :: c :: _ =>
      if c.isDigit then (Numeral.readDecimal? negative s).map .float else none
    | '.' :: [] => none
    | _ => (Numeral.readDecimal? negative s).map .float
  else none

/-- A number with a point or an exponent is a float, any other an integer. -/
def number? : List Char → Option Tree
  | '-' :: rest => unsignedNumber? true rest
  | s => unsignedNumber? false s

/-- The words that stand for values, also for what is no finite number. -/
def words : List (String × Tree) :=
  [("null", .null), ("true", .bool true), ("false", .bool false), ("NaN", .float .nan),
    ("Infinity", .float (.infinite false)), ("-Infinity", .float (.infinite true))]

/-- The value of a word at the front, and what follows it. -/
def readWord? (s : List Char) : Option (Tree × List Char) :=
  (words.find? fun w => w.1.toList.isPrefixOf s).map fun w => (w.2, s.drop w.1.length)

mutual

/-- A value at the front of a text and what follows it; `depth` bounds how many values begin. -/
def readValue : Nat → List Char → Option (Tree × List Char)
  | 0, _ => none
  | depth + 1, s =>
    match skipSpace s with
    | '"' :: rest => (readText rest).map fun (text, rest) => (.str text, rest)
    | '[' :: rest =>
      match skipSpace rest with
      | ']' :: rest => some (.list [], rest)
      | rest => (readItems depth rest).map fun (items, rest) => (.list items, rest)
    | '{' :: rest =>
      match skipSpace rest with
      | '}' :: rest => some (.map [], rest)
      | rest => (readMembers depth rest).map fun (entries, rest) => (Tree.ofEntries entries, rest)
    | rest =>
      match readWord? rest with
      | some found => some found
      | none =>
        (number? (rest.takeWhile isNumberChar)).map fun n => (n, rest.dropWhile isNumberChar)

def readItems : Nat → List Char → Option (List Tree × List Char)
  | 0, _ => none
  | depth + 1, s => do
    let (item, rest) ← readValue depth s
    match skipSpace rest with
    | ',' :: rest =>
      let (items, rest) ← readItems depth rest
      some (item :: items, rest)
    | ']' :: rest => some ([item], rest)
    | _ => none

def readMembers : Nat → List Char → Option (List (Tree × Tree) × List Char)
  | 0, _ => none
  | depth + 1, s =>
    match skipSpace s with
    | '"' :: rest => do
      let (key, rest) ← readText rest
      match skipSpace rest with
      | ':' :: rest =>
        let (value, rest) ← readValue depth rest
        match skipSpace rest with
        | ',' :: rest =>
          let (members, rest) ← readMembers depth rest
          some ((.str key, value) :: members, rest)
        | '}' :: rest => some ([(.str key, value)], rest)
        | _ => none
      | _ => none
    | _ => none

end

/-- The tree that a text of one value denotes. A repeated key takes its last value and keeps its
first place. -/
def read? (s : String) : Option Tree :=
  match readValue (2 * s.length + 2) s.toList with
  | some (t, rest) => if (skipSpace rest).isEmpty then some t else none
  | none => none

end ApiScaffold.Json
