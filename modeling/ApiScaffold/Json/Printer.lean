import ApiScaffold.Tree.Shown

namespace ApiScaffold.Json

/-- A character inside a text: the quote, the backslash and the controls are escaped. -/
def escapeChar (c : Char) : List Char :=
  match c with
  | '"' => ['\\', '"']
  | '\\' => ['\\', '\\']
  | '\n' => ['\\', 'n']
  | '\r' => ['\\', 'r']
  | '\t' => ['\\', 't']
  | '\x08' => ['\\', 'b']
  | '\x0c' => ['\\', 'f']
  | c => if c.toNat < 32 then '\\' :: 'u' :: Text.hexDigits 4 c.toNat else [c]

def text (s : Text) : Text :=
  "\"" ++ Text.flatMapChars escapeChar s ++ "\""

/-- How a list or map is laid out: what stands after its opening bracket, between its members
and before its closing one, and after the colon of a member. -/
structure Layout where
  start : Nat → Text
  between : Nat → Text
  finish : Nat → Text
  colon : Text

def Layout.compact : Layout :=
  ⟨fun _ => "", fun _ => ",", fun _ => "", ":"⟩

def newline (level : Nat) : Text :=
  .char '\n' :: List.replicate (2 * level) (.char ' ')

/-- A member on each line, two spaces further in than the brackets. -/
def Layout.indented : Layout :=
  ⟨fun level => newline (level + 1), fun level => "," ++ newline (level + 1), newline, ": "⟩

def Layout.bracketed (l : Layout) (level : Nat) (opening closing : Text)
    (members : List Text) : Text :=
  if members.isEmpty then opening ++ closing
  else
    opening ++ l.start level ++ Text.joined (l.between level) members ++
      l.finish level ++ closing

mutual

/-- The text of a value. Values that the notation has no form for are written as texts. -/
def write (l : Layout) (level : Nat) : Tree → Text
  | .null => "null"
  | .bool b => if b then "true" else "false"
  | .int n => toString n
  | .str s => text s
  | .list items | .tuple items | .set items =>
    l.bracketed level "[" "]" (writeItems l (level + 1) items)
  | .map entries => l.bracketed level "\x7b" "\x7d" (writeMembers l (level + 1) entries)
  | .float x => x.text
  | .bytes bs => text (Tree.shownBytes bs)
  | .date d => text d.text
  | .moment t => text (t.text "T")
  | .recurring _ t => write l level t

def writeItems (l : Layout) (level : Nat) : List Tree → List Text
  | [] => []
  | item :: rest => write l level item :: writeItems l level rest

def writeMembers (l : Layout) (level : Nat) : List (Tree × Tree) → List Text
  | [] => []
  | (key, value) :: rest =>
    (text key.name ++ l.colon ++ write l level value) :: writeMembers l level rest

end

/-- The shortest text of a value. What is no character is written as an escape. -/
def compact (t : Tree) : String :=
  Text.escaped (write .compact 0 t)

def indented (t : Tree) : Text :=
  write .indented 0 t

end ApiScaffold.Json
