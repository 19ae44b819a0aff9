import ApiScaffold.Text.Case

namespace ApiScaffold.Name

/-- Which names are read as entities and which columns as primary keys. -/
structure Policy where
  isEntity : Text → Bool
  isPrimaryKey : Text → Bool

def startsUpper (name : Text) : Bool :=
  name.head?.any (·.is Text.isUpper)

def isId (name : Text) : Bool :=
  name == "id"

/-- `Pet` is an entity and `string` is none; a column named `id` is the primary key. -/
def Policy.standard : Policy :=
  ⟨startsUpper, isId⟩

end ApiScaffold.Name
