import ApiScaffold.Number.Binary64

namespace ApiScaffold.Binary64

/-- A decimal `digits · 10 ^ power`. -/
structure Decimal where
  digits : Nat
  power : Int
  deriving DecidableEq, Repr

/-- Twice two: the numbers that round to a mantissa end half a unit, and below a power of two a
quarter of a unit, away, so quarters of a unit are whole. -/
def quarters (mantissa : Nat) : Nat :=
  4 * mantissa

/-- Both sides of the comparison of `d · 10 ^ power` with `q · 2 ^ (exponent - 2)`, cleared of
fractions. -/
def sides (power exponent : Int) (d q : Nat) : Nat × Nat :=
  let shift := exponent - 2
  (timesTwos (timesTens d power) (-shift), timesTwos (timesTens q (-power)) shift)

/-- Whether a decimal rounds to `mantissa · 2 ^ exponent`. The ends of the interval belong to it
when the mantissa is even. -/
def roundsTo (mantissa : Nat) (exponent power : Int) (d : Nat) : Bool :=
  let below := if mantissa = leastMantissa ∧ leastExponent < exponent then 1 else 2
  let low := sides power exponent d (quarters mantissa - below)
  let high := sides power exponent d (quarters mantissa + 2)
  if mantissa % 2 = 0 then low.2 ≤ low.1 && high.1 ≤ high.2
  else low.2 < low.1 && high.1 < high.2

/-- The greatest `k` with `10 ^ k ≤ mantissa · 2 ^ exponent`, found down from an upper bound. -/
def floorLog10 (mantissa : Nat) (exponent : Int) : Nat → Int → Int
  | 0, k => k
  | fuel + 1, k =>
    let (left, right) := sides k exponent 1 (quarters mantissa)
    if left ≤ right then k else floorLog10 mantissa exponent fuel (k - 1)

/-- The nearer of the two neighbours on the grid of `power` that rounds to the number, the even
one of two at the same distance. -/
def onGrid? (mantissa : Nat) (exponent power : Int) : Option Nat :=
  let (unit, value) := sides power exponent 1 (quarters mantissa)
  let low := value / unit
  let twice := 2 * (value % unit)
  let nearest := if twice < unit ∨ (twice = unit ∧ low % 2 = 0) then low else low + 1
  let other := if nearest = low then low + 1 else low
  if roundsTo mantissa exponent power nearest then some nearest
  else if roundsTo mantissa exponent power other then some other
  else none

/-- Tries ever finer grids; `count` is how many more there are. -/
def refine (mantissa : Nat) (exponent : Int) : Nat → Int → Decimal
  | 0, power => ⟨(onGrid? mantissa exponent power).getD 0, power⟩
  | count + 1, power =>
    match onGrid? mantissa exponent power with
    | some d => ⟨d, power⟩
    | none => refine mantissa exponent count (power - 1)

/-- The fewest digits that read back as the number: seventeen always do. -/
def shortest (mantissa : Nat) (exponent : Int) : Decimal :=
  let bits : Int := mantissa.log2 + 1 + exponent
  let top := floorLog10 mantissa exponent 400 (bits * 3 / 10 + 2)
  refine mantissa exponent 17 top

end ApiScaffold.Binary64
