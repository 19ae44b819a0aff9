import ApiScaffold.Text.Case

namespace ApiScaffold.Name

/-- Whether names that differ only in case are told apart. -/
inductive CaseMode where
  | exact
  | folded
  deriving DecidableEq, Repr

def CaseMode.key : CaseMode → Text → Text
  | exact, name => name
  | folded, name => Text.lower name

def numbered (name : Text) (k : Nat) : Text :=
  name ++ "_" ++ toString k

/-- The first free one of `name_k`, `name_(k+1)`, …; at most `tries` of them are taken. -/
def firstFree (mode : CaseMode) (taken : List Text) (name : Text) : Nat → Nat → Text
  | 0, k => numbered name k
  | tries + 1, k =>
    if mode.key (numbered name k) ∈ taken then firstFree mode taken name tries (k + 1)
    else numbered name k

/-- The name itself if it is free, and else the first free numbered one. Every taken name rules
out one candidate, so as many tries as there are taken names are enough. -/
def unique (mode : CaseMode) (taken : List Text) (name : Text) : Text :=
  if mode.key name ∈ taken then firstFree mode taken name taken.length 2 else name

/-- Chooses a free name and takes it. -/
def claim (mode : CaseMode) (taken : List Text) (name : Text) : Text × List Text :=
  let chosen := unique mode taken name
  (chosen, mode.key chosen :: taken)

/-- Claims names from left to right. -/
def claimAll (mode : CaseMode) (taken : List Text) : List Text → List Text
  | [] => []
  | name :: rest =>
    let (chosen, taken) := claim mode taken name
    chosen :: claimAll mode taken rest

end ApiScaffold.Name
