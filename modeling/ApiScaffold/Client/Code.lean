import ApiScaffold.Text.Basic

namespace ApiScaffold.Client

/-- Lines of code and the level at which the next one stands. -/
structure Code where
  lines : List Text
  level : Int
  deriving DecidableEq, Repr

namespace Code

def empty : Code :=
  ⟨[], 0⟩

def indent (level : Int) : Text :=
  List.replicate (2 * level.toNat) (.char ' ')

/-- Adds a line; one without text is not indented. -/
def line (text : Text) (c : Code) : Code :=
  { c with lines := c.lines ++ [if text.isEmpty then text else indent c.level ++ text] }

/-- Adds a line and indents what follows. -/
def enter (text : Text) (c : Code) : Code :=
  let c := c.line text
  { c with level := c.level + 1 }

/-- Ends the innermost block with a line at the level of its beginning. -/
def leave (text : Text) (c : Code) : Code :=
  { c with level := c.level - 1 }.line text

def lineAll (texts : List Text) (c : Code) : Code :=
  texts.foldl (fun c text => c.line text) c

def text (c : Code) : Text :=
  Text.joined "\n" c.lines

end Code
end ApiScaffold.Client
