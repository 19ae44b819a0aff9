import ApiScaffold.Name.Pascal
import ApiScaffold.Spec.Basic
import ApiScaffold.Text.Quoted

namespace ApiScaffold

inductive ArtifactKind where
  | table
  | function
  | hook
  deriving DecidableEq, Repr

def ArtifactKind.name : ArtifactKind → String
  | table => "table"
  | function => "function"
  | hook => "hook"

/-- Several names of one kind for which the same artifact would be generated. -/
structure Collision where
  kind : ArtifactKind
  generated : Text
  sources : List Text
  deriving DecidableEq, Repr

namespace Collision

def subject (c : Collision) : Text :=
  c.kind.name ++ " " ++ c.generated

def message (c : Collision) : Text :=
  toString c.sources.length ++ " " ++ c.kind.name ++ "s map to " ++ Text.quoted c.generated ++
    " (" ++ String.intercalate ", " (c.sources.map Text.quoted) ++ ")"

/-- The sources of every generated name, for the names that have more than one. -/
def among (kind : ArtifactKind) (generate : Text → Text) (sources : List Text) :
    List Collision :=
  (sources.map generate).eraseDups.filterMap fun generated =>
    let same := sources.filter fun s => generate s == generated
    if 1 < same.length then some ⟨kind, generated, same⟩ else none

end Collision

/-- The collisions of a specification; it has none when every artifact has a name of its own. -/
def Spec.collisions (s : Spec) : List Collision :=
  let tables := s.tables.map (·.name)
  let functions := s.functions.map (·.name)
  Collision.among .table Identifier.ofTable tables ++
    Collision.among .function Identifier.ofFunction functions ++
    Collision.among .hook Name.hook functions

end ApiScaffold
