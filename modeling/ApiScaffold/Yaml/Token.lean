import ApiScaffold.Yaml.Fault

namespace ApiScaffold.Yaml

inductive Directive where
  | version (major : Nat)
  | tagHandle (handle start : String)
  | other
  deriving DecidableEq, Repr

inductive Token where
  | streamEnd
  | directive (d : Directive)
  | documentStart
  | documentEnd
  | blockSequenceStart
  | blockMappingStart
  | blockEnd
  | flowSequenceStart
  | flowSequenceEnd
  | flowMappingStart
  | flowMappingEnd
  | blockEntry
  | flowEntry
  | key
  | value
  | alias (name : String)
  | anchor (name : String)
  | tag (handle : Option String) (suffix : String)
  | scalar (text : Text) (plain : Bool)
  deriving DecidableEq, Repr

/-- The tokens of a text up to its end, or up to a fault. The fault is met only where a token is
asked for and none is left. -/
structure Tokens where
  list : List Token
  fault : Option Fault
  deriving DecidableEq, Repr

namespace Tokens

def next (ts : Tokens) : Except Fault Token :=
  match ts.list with
  | t :: _ => .ok t
  | [] => .error (ts.fault.getD .misplaced)

def rest (ts : Tokens) : Tokens :=
  { ts with list := ts.list.drop 1 }

end Tokens

end ApiScaffold.Yaml
