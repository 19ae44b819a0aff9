import ApiScaffold.Text.Replace

namespace ApiScaffold

/-- How a path begins: where it is relative to, or the root. Two slashes are a root of their own. -/
inductive Anchor where
  | relative
  | root
  | doubleRoot
  deriving DecidableEq, Repr

/-- A path without empty and `.` parts; `..` is kept. -/
structure Path where
  anchor : Anchor
  parts : List Text
  deriving DecidableEq, Repr

namespace Path

def anchorOf : Text → Anchor
  | .char '/' :: .char '/' :: .char '/' :: _ => .root
  | .char '/' :: .char '/' :: _ => .doubleRoot
  | .char '/' :: _ => .root
  | _ => .relative

def ofText (t : Text) : Path :=
  ⟨anchorOf t, (Text.pieces (.char '/') t).filter fun part => part != "" && part != "."⟩

def Anchor.text : Anchor → String
  | .relative => ""
  | .root => "/"
  | .doubleRoot => "//"

/-- The path as it is shown; the empty one is `.`. -/
def text (p : Path) : Text :=
  if p.anchor = .relative ∧ p.parts = [] then "."
  else Anchor.text p.anchor ++ Text.joined "/" p.parts

/-- Continues a path; one that begins at a root starts anew. -/
def join (p q : Path) : Path :=
  if q.anchor = .relative then ⟨p.anchor, p.parts ++ q.parts⟩ else q

def parent (p : Path) : Path :=
  ⟨p.anchor, p.parts.dropLast⟩

end Path
end ApiScaffold
