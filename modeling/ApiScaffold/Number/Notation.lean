import ApiScaffold.Number.Shortest

namespace ApiScaffold

/-- How a number is written: `least` and `bound` are the powers of ten from which and below which
it is positional, `width` is the least number of exponent digits. -/
structure Notation where
  least : Int
  bound : Int
  width : Nat

/-- Numbers from `0.0001` to below `1e16` are positional and keep one digit after the point;
others have an exponent with a sign and two digits at least. -/
def Notation.plain : Notation :=
  ⟨-4, 16, 2⟩

namespace Notation

def dropZeros (digits : List Char) : List Char :=
  (digits.reverse.dropWhile (· == '0')).reverse

def exponentText (n : Notation) (power : Int) : List Char :=
  let digits := Nat.toDigits 10 power.natAbs
  (if power < 0 then '-' else '+') :: List.replicate (n.width - digits.length) '0' ++ digits

/-- Writes `0.d₁d₂… · 10 ^ point`, where the first digit is not zero. -/
def layout (n : Notation) (digits : List Char) (point : Int) : List Char :=
  if n.least < point ∧ point ≤ n.bound then
    if point ≤ 0 then '0' :: '.' :: List.replicate (-point).toNat '0' ++ digits
    else
      let p := point.toNat
      let whole := digits.take p ++ List.replicate (p - digits.length) '0'
      let rest := digits.drop p
      whole ++ '.' :: (if rest.isEmpty then ['0'] else rest)
  else
    let tail := digits.drop 1
    digits.take 1 ++ (if tail.isEmpty then [] else '.' :: tail) ++
      'e' :: n.exponentText (point - 1)

def write (n : Notation) : Binary64 → String
  | .nan => "nan"
  | .infinite negative => if negative then "-inf" else "inf"
  | .finite negative mantissa exponent =>
    let size :=
      if mantissa = 0 then ['0', '.', '0']
      else
        let d := Binary64.shortest mantissa exponent
        let digits := Nat.toDigits 10 d.digits
        n.layout (dropZeros digits) (digits.length + d.power)
    String.ofList (if negative then '-' :: size else size)

end Notation

def Binary64.text (x : Binary64) : String :=
  Notation.plain.write x

end ApiScaffold
