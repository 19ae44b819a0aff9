import ApiScaffold.Text.Basic

namespace ApiScaffold.Identifier

def isStart (c : Char) : Bool :=
  c.isAlpha || c == '_'

def isPart (c : Char) : Bool :=
  c.isAlphanum || c == '_'

/-- A word over the alphabet of `part` that begins in `start`. One line feed may follow it. -/
def isWord (start part : Char → Bool) : Text → Bool
  | [] => false
  | p :: rest =>
    p.is start &&
      (rest.all (·.is part) ||
        (rest.getLast? == some (.char '\n') && rest.dropLast.all (·.is part)))

/-- Letters, digits and underscores, not beginning with a digit. -/
def accepts (name : Text) : Bool :=
  isWord isStart isPart name

/-- Drops every character that no identifier holds and sets an underscore before a leading
digit. Where nothing is left the fallback stands in. -/
def clean (fallback raw : Text) : Text :=
  match raw.filter (·.is isPart) with
  | [] => fallback
  | p :: rest => if p.is Char.isDigit then .char '_' :: p :: rest else p :: rest

def ofTable (name : Text) : Text :=
  clean "unnamed_table" name

def ofFunction (name : Text) : Text :=
  clean "unnamed_function" name

end ApiScaffold.Identifier
