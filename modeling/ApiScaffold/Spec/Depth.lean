import ApiScaffold.Spec.Basic

namespace ApiScaffold.DataType

/-- Where a type stands: on its own, as the type that something is declared with, or inside
another one. What is inside an array stays so, also inside the objects that stand there. -/
inductive Surrounding where
  | alone
  | declared
  | inObject
  | inArray
  deriving DecidableEq, Repr

/-- Where the parts of a type of a form stand. -/
def Surrounding.inside : Surrounding → Kind → Surrounding
  | _, .array => inArray
  | inArray, _ => inArray
  | _, _ => inObject

/-- How many levels a type of a form takes up. What is declared opens a level for the first array
or object, and what is in an object one for the first array. -/
def Surrounding.levels : Surrounding → Kind → Nat
  | declared, .array | declared, .object | inObject, .array => 2
  | _, _ => 1

/-- The most levels that a type may have to be shown or read. -/
def levelLimit : Nat := 255

/-- The levels around the parts of a type that stands below `above` levels; none if there are too
many. -/
def below? (place : Surrounding) (above : Nat) (kind : Kind) : Option Nat :=
  let levels := above + place.levels kind
  if levels ≤ levelLimit then some levels else none

mutual

/-- Whether a type and all its parts stay within the limit. -/
def isShallow (place : Surrounding) (above : Nat) (t : DataType) : Bool :=
  match below? place above t.kind with
  | none => false
  | some levels =>
    match t with
    | primitive _ _ | reference _ => true
    | array items => items.isShallow (place.inside .array) levels
    | object properties => areShallow (place.inside .object) levels properties

def areShallow (place : Surrounding) (above : Nat) : List (Text × DataType) → Bool
  | [] => true
  | (_, t) :: rest => t.isShallow place above && areShallow place above rest

end

end ApiScaffold.DataType

namespace ApiScaffold

/-- Whether every type of a specification is declared within the limit. -/
def Spec.isShallow (s : Spec) : Bool :=
  s.tables.all (·.columns.all (·.type.isShallow .declared 0)) &&
    s.functions.all (·.parameters.all (·.type.isShallow .declared 0))

end ApiScaffold
