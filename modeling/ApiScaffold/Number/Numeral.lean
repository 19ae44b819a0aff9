import ApiScaffold.Number.Binary64
import ApiScaffold.Text.Blank
import ApiScaffold.Text.Digit

namespace ApiScaffold.Numeral
open Text

/-- What a numeral is read by: ASCII as it is, any other blank as a space, and a digit of any
script as that of ASCII. Nothing else belongs to a numeral, so a question mark stands for it. -/
def plainPoint : CodePoint → Char
  | .char c =>
    if c.toNat < 128 then c
    else if isBlank c then ' '
    else
      match digit? c with
      | some d => Nat.digitChar d
      | none => '?'
  | .surrogate _ => '?'

def plainForm (t : Text) : List Char :=
  t.map plainPoint

/-- The value of a digit, or of a Latin letter as a digit above nine. -/
def digitValue? (c : Char) : Option Nat :=
  if '0' ≤ c ∧ c ≤ '9' then some (c.toNat - 48)
  else if 'a' ≤ c ∧ c ≤ 'z' then some (c.toNat - 87)
  else if 'A' ≤ c ∧ c ≤ 'Z' then some (c.toNat - 55)
  else none

/-- The digits of one base, most significant first, read onto `value`. -/
def readDigits? (base value : Nat) : List Char → Option Nat
  | [] => some value
  | c :: rest =>
    match digitValue? c with
    | some d => if d < base then readDigits? base (value * base + d) rest else none
    | none => none

def splitSign : List Char → Bool × List Char
  | '-' :: rest => (true, rest)
  | '+' :: rest => (false, rest)
  | s => (false, s)

/-- The letter that may follow a leading zero in a numeral of the base. -/
def baseMark : Nat → Option (Char × Char)
  | 2 => some ('b', 'B')
  | 8 => some ('o', 'O')
  | 16 => some ('x', 'X')
  | _ => none

def dropMark (base : Nat) : List Char → List Char
  | '0' :: mark :: rest =>
    match baseMark base with
    | some (small, large) => if mark = small ∨ mark = large then rest else '0' :: mark :: rest
    | none => '0' :: mark :: rest
  | s => s

/-- The most decimal digits that a numeral is read with. -/
def digitLimit : Nat := 4300

inductive IntegerFault where
  | notNumeral (base : Nat) (text : Text)
  | tooLong (digits : Nat)
  deriving DecidableEq, Repr

/-- The blanks that may stand around a numeral: the space and the controls that move on. -/
def isMargin (c : Char) : Bool :=
  c == ' ' || ('\t' ≤ c && c ≤ '\r')

def trimMargins (s : List Char) : List Char :=
  dropLastWhile isMargin (s.dropWhile isMargin)

/-- The longest run of digits at the front, and what follows. -/
def spanDigits : List Char → List Nat × List Char
  | [] => ([], [])
  | c :: rest =>
    if c.isDigit then
      let (ds, tail) := spanDigits rest
      ((c.toNat - 48) :: ds, tail)
    else ([], c :: rest)

def ofDigits (ds : List Nat) : Nat :=
  ds.foldl (fun n d => n * 10 + d) 0

/-- Reads a numeral between blanks, with a sign and the mark of its base if it has them. Too many
decimal digits are refused before anything behind them is looked at. -/
def readInteger (base : Nat) (t : Text) : Except IntegerFault Int :=
  let (negative, unsigned) := splitSign (trimMargins (plainForm t))
  let digits := dropMark base unsigned
  let run := (spanDigits digits).1.length
  if base = 10 ∧ digitLimit < run then .error (.tooLong run)
  else
    match digits with
    | [] => .error (.notNumeral base t)
    | _ :: _ =>
      match readDigits? base 0 digits with
      | none => .error (.notNumeral base t)
      | some n => .ok (if negative then -(n : Int) else n)

/-- The power of ten after an exponent mark; none when what follows is no exponent. -/
def readExponent? : List Char → Option Int
  | [] => some 0
  | mark :: rest =>
    if mark = 'e' ∨ mark = 'E' then
      let (negative, unsigned) := splitSign rest
      match spanDigits unsigned with
      | (d :: ds, []) =>
        let n : Int := ofDigits (d :: ds)
        some (if negative then -n else n)
      | _ => none
    else none

/-- A decimal with digits on at least one side of the point, and an exponent if there is one. -/
def readDecimal? (negative : Bool) (s : List Char) : Option Binary64 :=
  let (whole, rest) := spanDigits s
  let (fraction, rest) :=
    match rest with
    | '.' :: rest => spanDigits rest
    | _ => ([], rest)
  if whole.isEmpty ∧ fraction.isEmpty then none
  else
    (readExponent? rest).map fun power =>
      .ofDecimal negative (ofDigits (whole ++ fraction)) (power - fraction.length)

def smallLatin (c : Char) : Char :=
  if 'A' ≤ c ∧ c ≤ 'Z' then Char.ofNat (c.toNat + 32) else c

/-- Reads a decimal between blanks, or one of the words for what is no finite number. -/
def readFloat? (t : Text) : Option Binary64 :=
  let (negative, unsigned) := splitSign (trimMargins (plainForm t))
  let word := String.ofList (unsigned.map smallLatin)
  if word = "inf" ∨ word = "infinity" then some (.infinite negative)
  else if word = "nan" then some .nan
  else readDecimal? negative unsigned

end ApiScaffold.Numeral
