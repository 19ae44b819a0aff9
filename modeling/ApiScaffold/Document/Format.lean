import ApiScaffold.Tree

namespace ApiScaffold.Document

/-- The flavour of a description, by the version key it has. -/
inductive Format where
  | openapi3
  | swagger2
  | unknown
  deriving DecidableEq, Repr

def Format.of (t : Tree) : Format :=
  if t.has "openapi" then .openapi3
  else if t.has "swagger" then .swagger2
  else .unknown

end ApiScaffold.Document
