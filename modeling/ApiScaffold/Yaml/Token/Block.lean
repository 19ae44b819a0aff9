import ApiScaffold.Yaml.Token.Plain
import ApiScaffold.Yaml.Token.Property

namespace ApiScaffold.Yaml
open Spots

/-- What becomes of the line breaks at the end of a block scalar. -/
inductive Chomping where
  | strip
  | clip
  | keep
  deriving DecidableEq, Repr

def chompingOf? (c : Char) : Option Chomping :=
  if c = '+' then some .keep else if c = '-' then some .strip else none

/-- An indentation indicator, which is a digit but not zero. -/
def readIndentation (s : Spots) : Except Fault (Option Nat × Spots) :=
  let c := peek s
  if c = '0' then .error .scalar
  else if c.isDigit then .ok (some (c.toNat - 48), s.drop 1)
  else .ok (none, s)

def readChomping (s : Spots) : Option Chomping × Spots :=
  match chompingOf? (peek s) with
  | some chomping => (some chomping, s.drop 1)
  | none => (none, s)

/-- The two indicators of a block scalar, in either order. -/
def readIndicators (s : Spots) : Except Fault (Chomping × Option Nat × Spots) := do
  let (before, rest) := readChomping s
  let (indentation, rest) ← readIndentation rest
  let (after, rest) :=
    if before.isNone && indentation.isSome then readChomping rest else (none, rest)
  if isGap (peek rest) then .ok ((before.or after).getD .clip, indentation, rest)
  else .error .scalar

/-- The breaks before the first line of text, and the deepest indentation among them. -/
def leadingBreaks (deepest : Nat) : Spots → List Char × Nat × Spots
  | [] => ([], deepest, [])
  | p :: rest =>
    if p.char = ' ' then leadingBreaks (max deepest (p.column + 1)) rest
    else if p.char = '\r' ∧ peek rest = '\n' then leadingBreaks deepest rest
    else if isBreak p.char then
      let (breaks, deepest, rest) := leadingBreaks deepest rest
      (plainBreak p.char :: breaks, deepest, rest)
    else ([], deepest, p :: rest)

/-- The breaks before a line, up to its indentation. -/
def blockBreaks (indent : Nat) : Spots → List Char × Spots
  | [] => ([], [])
  | p :: rest =>
    if (p.char = ' ' ∧ p.column < indent) ∨ (p.char = '\r' ∧ peek rest = '\n') then
      blockBreaks indent rest
    else if isBreak p.char then
      let (breaks, rest) := blockBreaks indent rest
      (plainBreak p.char :: breaks, rest)
    else ([], p :: rest)

def continuesBlock (indent : Nat) (s : Spots) : Bool :=
  column s == indent && !isEnd (peek s)

/-- The lines of a block scalar. `last` is the break that ended the line before and `breaks` are
the blank lines behind it; both are returned for the last line. -/
def blockLines (folded : Bool) (indent : Nat) : Nat → List Char → List Char → Spots →
    List Char × List Char × List Char × Spots
  | 0, last, breaks, s => ([], last, breaks, s)
  | fuel + 1, last, breaks, s =>
    if continuesBlock indent s then
      let (line, rest) := spanChars (!isBreakOrEnd ·) s
      let (last, rest) := lineBreak rest
      let (next, rest) := blockBreaks indent rest
      let join :=
        if !continuesBlock indent rest then []
        else if folded && last == ['\n'] && !isTabOrSpace (peek s) && !isTabOrSpace (peek rest)
        then (if next.isEmpty then [' '] else [])
        else last
      let (text, last, next, rest) := blockLines folded indent fuel last next rest
      (breaks ++ line ++ join ++ text, last, next, rest)
    else ([], last, breaks, s)

/-- A block scalar, after its indicator; `indent` is the indentation around it and `bound` the
length of the whole text. -/
def readBlock (bound : Nat) (folded : Bool) (indent : Int) (s : Spots) :
    Except Fault (Text × Spots) := do
  let (chomping, indentation, rest) ← readIndicators s
  let rest ← endLine .scalar rest
  let least := max (indent + 1).toNat 1
  let (indent, breaks, rest) :=
    match indentation with
    | some n =>
      let indent := least + n - 1
      let (breaks, rest) := blockBreaks indent rest
      (indent, breaks, rest)
    | none =>
      let (breaks, deepest, rest) := leadingBreaks 0 rest
      (max least deepest, breaks, rest)
  let (text, last, breaks, rest) := blockLines folded indent bound [] breaks rest
  let ending :=
    match chomping with
    | .strip => []
    | .clip => last
    | .keep => last ++ breaks
  .ok (Text.ofChars (text ++ ending), rest)

end ApiScaffold.Yaml
