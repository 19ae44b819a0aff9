namespace ApiScaffold.Text

/-- The numbers `first`, `first + step`, … up to `last`. Letters with case often alternate
between the two cases, so runs of step two keep the tables short. -/
structure Run where
  first : Nat
  last : Nat
  step : Nat

def Run.holds (r : Run) (n : Nat) : Bool :=
  r.first ≤ n && n ≤ r.last && (n - r.first) % r.step == 0

def Run.covers (rs : List Run) (n : Nat) : Bool :=
  rs.any (·.holds n)

/-- The same distance to another character for every number of a run. -/
structure Shift where
  run : Run
  distance : Int

def Shift.image? (shifts : List Shift) (n : Nat) : Option Nat :=
  (shifts.find? (·.run.holds n)).map fun s => ((n : Int) + s.distance).toNat

end ApiScaffold.Text
