import ApiScaffold.Text.Basic

namespace ApiScaffold.Text

/-- The characters that end a line: the ASCII line and record separators,
NEL, and the two Unicode separators. -/
def isLineBreak (c : Char) : Bool :=
  c == '\n' || c == '\x0b' || c == '\x0c' || c == '\r' || c == '\x1c' || c == '\x1d' ||
    c == '\x1e' || c == '\x85' || c == '\u2028' || c == '\u2029'

/-- A line break ends a line, so a text that ends in one has no empty last line. -/
def splitLines : Text → List Text
  | [] => []
  | .char '\r' :: .char '\n' :: rest => [] :: splitLines rest
  | p :: rest =>
    if p.is isLineBreak then [] :: splitLines rest
    else
      match splitLines rest with
      | [] => [[p]]
      | line :: more => (p :: line) :: more

/-- Carriage returns, alone or before a line feed, read as line feeds. -/
def unixBreaks : List Char → List Char
  | [] => []
  | '\r' :: '\n' :: rest => '\n' :: unixBreaks rest
  | c :: rest => (if c = '\r' then '\n' else c) :: unixBreaks rest

end ApiScaffold.Text
