import ApiScaffold.Text.Basic

namespace ApiScaffold.Client

/-- A piece of a template literal: text that stands for itself, or an expression. -/
inductive Part where
  | text (s : Text)
  | expression (code : Text)
  deriving DecidableEq, Repr

namespace Part

/-- Escapes what would end the literal or open an expression. -/
def escapeText : Text → Text
  | .char '$' :: .char '{' :: rest => "\\$\x7b" ++ escapeText rest
  | p :: rest => (if p.is (· ∈ ['\\', '`']) then [.char '\\', p] else [p]) ++ escapeText rest
  | [] => []

/-- Writes the parts after `pending`, the text that is not yet written. Neighbouring texts are
escaped together, since a dollar sign may end one and a brace begin the next. -/
def write (pending : Text) : List Part → Text
  | [] => escapeText pending
  | text s :: rest => write (pending ++ s) rest
  | expression code :: rest => escapeText pending ++ "$\x7b" ++ code ++ "\x7d" ++ write [] rest

end Part

def template (parts : List Part) : Text :=
  "\x60" ++ Part.write [] parts ++ "\x60"

end ApiScaffold.Client
