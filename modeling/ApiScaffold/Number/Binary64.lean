namespace ApiScaffold

/-- A double-precision number: an infinity, not a number, or a sign with `mantissa · 2 ^ exponent`.
The mantissa of a rounded number has 53 bits, or fewer at the least exponent, so equal
numbers of one sign are equal values. -/
inductive Binary64 where
  | nan
  | infinite (negative : Bool)
  | finite (negative : Bool) (mantissa : Nat) (exponent : Int)
  deriving DecidableEq, Repr

namespace Binary64

def leastExponent : Int := -1074

def greatestExponent : Int := 971

def zero (negative : Bool) : Binary64 :=
  .finite negative 0 leastExponent

/-- `n · 2 ^ power`, where a negative power counts as none. -/
def timesTwos (n : Nat) (power : Int) : Nat :=
  n <<< power.toNat

/-- `n · 10 ^ power`, where a negative power counts as none. -/
def timesTens (n : Nat) (power : Int) : Nat :=
  n * Nat.pow 10 power.toNat

/-- The mantissas of numbers that are not tiny have 53 bits, of which this is the least. -/
def leastMantissa : Nat :=
  timesTwos 1 52

/-- The quotient rounded to the nearest integer, a tie to the even one. -/
def divideToEven (num den : Nat) : Nat :=
  let low := num / den
  let twice := 2 * (num % den)
  if twice < den then low
  else if den < twice then low + 1
  else low + low % 2

/-- The greatest `k` with `2 ^ k ≤ num / den`, for a positive quotient. -/
def floorLog2 (num den : Nat) : Int :=
  let k : Int := (num.log2 : Int) - den.log2
  if timesTwos den k ≤ timesTwos num (-k) then k else k - 1

/-- The number nearest to a quotient; ties go to an even mantissa, and what lies past the
greatest number is infinite. -/
def ofQuotient (negative : Bool) (num den : Nat) : Binary64 :=
  if num = 0 then zero negative
  else
    let exponent := max (floorLog2 num den - 52) leastExponent
    let mantissa := divideToEven (timesTwos num (-exponent)) (timesTwos den exponent)
    let (mantissa, exponent) :=
      if mantissa = 2 * leastMantissa then (leastMantissa, exponent + 1) else (mantissa, exponent)
    if greatestExponent < exponent then .infinite negative
    else .finite negative mantissa exponent

/-- The number nearest to `digits · 10 ^ power`. Powers far out of range are settled by the count
of digits alone. -/
def ofDecimal (negative : Bool) (digits : Nat) (power : Int) : Binary64 :=
  let size : Int := (Nat.toDigits 10 digits).length + power
  if digits = 0 ∨ size < -400 then zero negative
  else if 400 < size then .infinite negative
  else ofQuotient negative (timesTens digits power) (timesTens 1 (-power))

def ofInt (n : Int) : Binary64 :=
  ofQuotient (n < 0) n.natAbs 1

def negate : Binary64 → Binary64
  | nan => nan
  | infinite s => infinite !s
  | finite s m e => finite (!s) m e

/-- The signed value over `2 ^ 1074`, which every finite number is a multiple of. -/
def units (negative : Bool) (mantissa : Nat) (exponent : Int) : Int :=
  let size : Int := timesTwos mantissa (exponent - leastExponent)
  if negative then -size else size

/-- The exact sum rounded once. A sum of zero is negative only if both terms are. -/
def add : Binary64 → Binary64 → Binary64
  | nan, _ => nan
  | _, nan => nan
  | infinite s, infinite t => if s = t then infinite s else nan
  | infinite s, _ => infinite s
  | _, infinite t => infinite t
  | finite s m e, finite t n f =>
    let sum := units s m e + units t n f
    if sum = 0 then zero (s && t)
    else ofQuotient (sum < 0) sum.natAbs (timesTwos 1 (-leastExponent))

/-- The exact product rounded once. -/
def mul : Binary64 → Binary64 → Binary64
  | nan, _ => nan
  | _, nan => nan
  | infinite s, infinite t => infinite (s != t)
  | infinite s, finite t n _ => if n = 0 then nan else infinite (s != t)
  | finite s m _, infinite t => if m = 0 then nan else infinite (s != t)
  | finite s m e, finite t n f =>
    ofQuotient (s != t) (timesTwos (m * n) (e + f)) (timesTwos 1 (-(e + f)))

def isZero : Binary64 → Bool
  | finite _ m _ => m == 0
  | _ => false

/-- The integer a number is equal to, if there is one. -/
def toInt? : Binary64 → Option Int
  | finite s m e =>
    let size := timesTwos m e
    let unit := timesTwos 1 (-e)
    if size % unit = 0 then some (if s then -(size / unit : Nat) else (size / unit : Nat)) else none
  | _ => none

/-- Equality of numbers: the zeros are equal and nothing equals what is not a number. -/
def sameNumber : Binary64 → Binary64 → Bool
  | nan, _ => false
  | finite s m e, finite t n f => (m == 0 && n == 0) || (s == t && m == n && e == f)
  | x, y => x == y

end Binary64
end ApiScaffold
