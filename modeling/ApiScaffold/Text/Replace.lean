import ApiScaffold.Text.Basic

namespace ApiScaffold.Text
variable {α : Type} [DecidableEq α]

/-- The pieces between the separators; there is always one more piece than separators. -/
def pieces (sep : α) : List α → List (List α)
  | [] => [[]]
  | a :: rest =>
    if a = sep then [] :: pieces sep rest
    else
      match pieces sep rest with
      | [] => [[a]]
      | piece :: more => (a :: piece) :: more

/-- Replaces every occurrence of the pair `a b`, from the left and without overlap. -/
def replacePair (a b : α) (new : List α) : List α → List α
  | x :: y :: rest =>
    if x = a ∧ y = b then new ++ replacePair a b new rest
    else x :: replacePair a b new (y :: rest)
  | [x] => [x]
  | [] => []

/-- What follows the last separator, or everything when there is none. -/
def afterLast (sep : α) (s : List α) : List α :=
  ((pieces sep s).getLast?).getD []

/-- Cuts `marker` off the end, if it stands there. -/
def cutEnd? (marker s : List α) : Option (List α) :=
  if marker.isSuffixOf s then some (s.take (s.length - marker.length)) else none

end ApiScaffold.Text
