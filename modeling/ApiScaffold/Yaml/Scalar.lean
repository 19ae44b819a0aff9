import ApiScaffold.Text.Case
import ApiScaffold.Text.Replace
import ApiScaffold.Tree
import ApiScaffold.Yaml.Scalar.Binary
import ApiScaffold.Yaml.Scalar.Timestamp
import ApiScaffold.Yaml.Tag

namespace ApiScaffold.Yaml

/-- Which plain words are truth values: `true` and `false` alone, or also `yes`, `no`, `on` and
`off`. -/
inductive Truths where
  | plain
  | wide
  deriving DecidableEq, Repr

namespace Scalar

/-- A word in lower case, capitalised, or in upper case. -/
def isCased (word : String) (s : List Char) : Bool :=
  let w := word.toList
  s == w || s == (w.take 1).map Char.toUpper ++ w.drop 1 || s == w.map Char.toUpper

def Truths.words : Truths → List String
  | .plain => ["true", "false"]
  | .wide => ["yes", "no", "true", "false", "on", "off"]

def isTruth (t : Truths) (s : List Char) : Bool :=
  (Truths.words t).any (isCased · s)

def dropSign : List Char → List Char
  | '-' :: rest | '+' :: rest => rest
  | s => s

def isDigitOrMark (c : Char) : Bool :=
  c.isDigit || c == '_'

/-- An exponent with a sign and digits, or nothing. -/
def isExponent : List Char → Bool
  | [] => true
  | mark :: sign :: d :: rest =>
    (mark == 'e' || mark == 'E') && (sign == '-' || sign == '+') && d.isDigit &&
      rest.all Char.isDigit
  | _ => false

/-- One or two digits below sixty. -/
def isSixty : List Char → Bool
  | [d] => d.isDigit
  | [tens, ones] => '0' ≤ tens && tens ≤ '5' && ones.isDigit
  | _ => false

/-- Digits in groups below sixty, with at least two groups. -/
def isSexagesimal (start : Char → Bool) (s : List Char) : Bool :=
  match Text.pieces ':' s with
  | (c :: first) :: group :: more =>
    start c && first.all isDigitOrMark && (group :: more).all isSixty
  | _ => false

/-- Digits and underscores with a point among them, or groups of them before the point. -/
def isFloat (s : List Char) : Bool :=
  let unsigned := dropSign s
  let whole := unsigned.takeWhile isDigitOrMark
  let rest := unsigned.dropWhile isDigitOrMark
  let startsWithDigit := whole.head?.any Char.isDigit
  (startsWithDigit && rest.head? == some '.' &&
    isExponent ((rest.drop 1).dropWhile isDigitOrMark)) ||
  (match s with
    | '.' :: d :: rest => d.isDigit && isExponent (rest.dropWhile isDigitOrMark)
    | _ => false) ||
  (let groups := unsigned.takeWhile (· != '.')
    let rest := unsigned.dropWhile (· != '.')
    isSexagesimal Char.isDigit groups && rest.head? == some '.' &&
      (rest.drop 1).all isDigitOrMark) ||
  (match unsigned with
    | '.' :: word => isCased "inf" word
    | _ => false) ||
  s == ".nan".toList || s == ".NaN".toList || s == ".NAN".toList

def isOctal (c : Char) : Bool :=
  ('0' ≤ c && c ≤ '7') || c == '_'

def isHex (c : Char) : Bool :=
  c.isDigit || ('a' ≤ c && c ≤ 'f') || ('A' ≤ c && c ≤ 'F') || c == '_'

def isNonZero (c : Char) : Bool :=
  '1' ≤ c && c ≤ '9'

/-- Whole numbers to base two, eight, ten and sixteen, and in groups below sixty. -/
def isInt (s : List Char) : Bool :=
  let unsigned := dropSign s
  (match unsigned with
    | ['0'] => true
    | '0' :: 'b' :: d :: rest => (d :: rest).all fun c => c == '0' || c == '1' || c == '_'
    | '0' :: 'x' :: d :: rest => (d :: rest).all isHex
    | '0' :: d :: rest => (d :: rest).all isOctal
    | d :: rest => isNonZero d && rest.all isDigitOrMark
    | [] => false) || isSexagesimal isNonZero unsigned

def isNull (s : List Char) : Bool :=
  s == ['~'] || isCased "null" s

/-- A line feed at the end does not change what a word looks like. -/
def withoutFinalBreak (s : List Char) : List Char :=
  if s.getLast? = some '\n' then s.dropLast else s

/-- The type that a scalar of these characters looks like. -/
def lookOf (t : Truths) (text : List Char) : Tag :=
  let s := withoutFinalBreak text
  if text = [] ∨ isNull s then .null
  else if isTruth t s then .bool
  else if isFloat s then .float
  else if isInt s then .int
  else if s = ['<', '<'] then .merge
  else if (Timestamp.read? s).any (·.isPlain) then .timestamp
  else if s = ['='] then .value
  else if s = ['!'] ∨ s = ['&'] ∨ s = ['*'] then .other (Tag.core ++ "yaml")
  else .str

/-- The type of a scalar that does not say of which type it is. -/
def plainTag (t : Truths) (text : Text) : Tag :=
  ((Text.chars? text).map (lookOf t)).getD .str

/-- The value of a truth word. The wide words count here whatever words are plain ones. -/
def truth (text : Text) : Except ValueFault Bool :=
  let word := Text.lower text
  if word = "yes" ∨ word = "true" ∨ word = "on" then .ok true
  else if word = "no" ∨ word = "false" ∨ word = "off" then .ok false
  else .error (.truth word)

/-- A number without its underscores, and whether it is negative. -/
def splitNumber (text : Text) : Except ValueFault (Bool × Text) :=
  match text.filter (· != .char '_') with
  | [] => .error .emptyNumber
  | .char '-' :: rest => .ok (true, rest)
  | .char '+' :: rest => .ok (false, rest)
  | s => .ok (false, s)

def readInt (base : Nat) (s : Text) : Except ValueFault Int :=
  (Numeral.readInteger base s).mapError .integer

/-- The digits of a number to base sixty, the most significant first. -/
def ofPlaces (value : Int) : List Text → Except ValueFault Int
  | [] => .ok value
  | s :: rest => do ofPlaces (value * 60 + (← readInt 10 s)) rest

def unsignedInt (s : Text) : Except ValueFault Int :=
  match s with
  | [] => .error .emptyNumber
  | .char '0' :: .char 'b' :: rest => readInt 2 rest
  | .char '0' :: .char 'x' :: rest => readInt 16 rest
  | .char '0' :: _ => readInt 8 s
  | _ => if .char ':' ∈ s then ofPlaces 0 (Text.pieces (.char ':') s) else readInt 10 s

def int (text : Text) : Except ValueFault Int := do
  let (negative, s) ← splitNumber text
  let n ← unsignedInt s
  .ok (if negative then -n else n)

def readFloat (s : Text) : Except ValueFault Binary64 :=
  match Numeral.readFloat? s with
  | some x => .ok x
  | none => .error (.float s)

/-- Adds up places of a number to base sixty, the least significant first; each term and each
sum is rounded. -/
def addPlaces (base : Nat) (sum : Binary64) : List Binary64 → Except ValueFault Binary64
  | [] => .ok sum
  | x :: rest =>
    match Binary64.ofInt base with
    | .infinite _ => .error .placeTooLarge
    | place => addPlaces (base * 60) (sum.add (x.mul place)) rest

/-- Whether a text without its sign is the word for no number. -/
def isNotNumberWord (s : Text) : Bool :=
  s == ".nan"

def unsignedFloat (s : Text) : Except ValueFault Binary64 :=
  if s = ".inf" then .ok (.infinite false)
  else if isNotNumberWord s then .ok .nan
  else if .char ':' ∈ s then do
    let places ← (Text.pieces (.char ':') s).mapM readFloat
    addPlaces 1 (.zero false) places.reverse
  else readFloat s

def float (text : Text) : Except ValueFault Binary64 := do
  let (negative, s) ← splitNumber (Text.lower text)
  let x ← unsignedFloat s
  .ok (if negative then x.negate else x)

/-- Whether a text as a number is the word for no number. -/
def isNotNumber (text : Text) : Bool :=
  match splitNumber (Text.lower text) with
  | .ok (_, s) => isNotNumberWord s
  | .error _ => false

def timestamp (text : Text) : Except ValueFault Tree :=
  match (Text.chars? text).bind fun s => Timestamp.read? (withoutFinalBreak s) with
  | none => .error .timestamp
  | some t =>
    match t.time with
    | none => (t.toDate.map Tree.date).mapError .calendar
    | some (hour, minute, second, fraction, offset) =>
      ((t.toMoment hour minute second fraction offset).map Tree.moment).mapError .calendar

/-- The value of a text that is of a scalar type; other types have no scalars. -/
def value (tag : Tag) (text : Text) : Except Fault Tree :=
  match tag with
  | .null => .ok .null
  | .bool => ((truth text).map Tree.bool).mapError .value
  | .int => ((int text).map Tree.int).mapError .value
  | .float => ((float text).map Tree.float).mapError .value
  | .timestamp => (timestamp text).mapError .value
  | .binary =>
    match Binary.decode? text with
    | some bytes => .ok (.bytes bytes)
    | none => .error .construction
  | .str => .ok (.str text)
  | _ => .error .construction

end Scalar
end ApiScaffold.Yaml
