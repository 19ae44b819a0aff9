import ApiScaffold.Name.Identifier
import ApiScaffold.Text.Blank
import ApiScaffold.Text.Lines
import ApiScaffold.Text.Replace

namespace ApiScaffold.Client

/-- A character between single quotes. The two Unicode line separators would end the literal
as line breaks do. -/
def escapeChar (c : Char) : List Char :=
  match c with
  | '\\' => ['\\', '\\']
  | '\'' => ['\\', '\'']
  | '\n' => ['\\', 'n']
  | '\r' => ['\\', 'r']
  | '\u2028' => "\\u2028".toList
  | '\u2029' => "\\u2029".toList
  | c => [c]

def literal (s : Text) : Text :=
  "'" ++ Text.flatMapChars escapeChar s ++ "'"

def isNameStart (c : Char) : Bool :=
  c.isAlpha || c == '_' || c == '$'

def isNamePart (c : Char) : Bool :=
  c.isAlphanum || c == '_' || c == '$'

/-- Whether a name may stand without quotes as a key or member. -/
def isName (s : Text) : Bool :=
  Identifier.isWord isNameStart isNamePart s

def propertyKey (name : Text) : Text :=
  if isName name then name else literal name

def member (object name : Text) : Text :=
  if isName name then object ++ "." ++ name else object ++ "[" ++ literal name ++ "]"

def objectLiteral (entries : List (Text × Text)) : Text :=
  if entries.isEmpty then "\x7b\x7d"
  else
    "\x7b " ++ Text.joined ", " (entries.map fun e => propertyKey e.1 ++ ": " ++ e.2) ++
      " \x7d"

def arrayLiteral (items : List Text) : Text :=
  "[" ++ Text.joined ", " items ++ "]"

/-- The trimmed lines of a text, blank ones left out and the end mark of a comment broken up. -/
def commentBody (s : Text) : List Text :=
  ((Text.splitLines (Text.replacePair (.char '*') (.char '/') "*\\/" s)).map Text.trim).filter
    fun line => !line.isEmpty

/-- A documentation comment: on one line if the text has one, otherwise with a line for each. -/
def docComment (s : Text) : List Text :=
  match commentBody s with
  | [] => []
  | [line] => ["/** " ++ line ++ " */"]
  | lines =>
    let middle : List Text := lines.map (" * " ++ ·)
    let finish : Text := " */"
    "/**" :: (middle ++ [finish])

end ApiScaffold.Client
