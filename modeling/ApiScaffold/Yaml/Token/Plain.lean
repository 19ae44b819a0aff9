import ApiScaffold.Text.Basic
import ApiScaffold.Yaml.Spot

namespace ApiScaffold.Yaml
open Spots

/-- A break between two lines of a scalar is a space, unless blank lines or a break of another
kind stand between them. -/
def foldBreaks (first more : List Char) : List Char :=
  (if first ≠ ['\n'] then first else if more.isEmpty then [' '] else []) ++ more

/-- A line break as it is read: only the two Unicode separators are kept. -/
def plainBreak (c : Char) : Char :=
  if c = '\u2028' ∨ c = '\u2029' then c else '\n'

def isFlowIndicator (c : Char) : Bool :=
  c == ',' || c == '[' || c == ']' || c == '{' || c == '}'

/-- Whether a plain scalar ends before `c`, which `next` follows. -/
def endsPlain (flow : Bool) (c next : Char) : Bool :=
  isGapOrTab c || (c == ':' && (isGapOrTab next || (flow && isFlowIndicator next))) ||
    (flow && (c == '?' || isFlowIndicator c))

/-- The characters of a plain scalar up to the next gap. -/
def plainChunk (flow : Bool) : Spots → List Char × Spots
  | [] => ([], [])
  | p :: rest =>
    if endsPlain flow p.char (peek rest) then ([], p :: rest)
    else
      let (chunk, rest) := plainChunk flow rest
      (p.char :: chunk, rest)

/-- The breaks between lines; it says whether a document mark ends them. -/
def plainBreaks : Spots → List Char × Bool × Spots
  | [] => ([], false, [])
  | p :: rest =>
    if p.char = ' ' ∨ (p.char = '\r' ∧ peek rest = '\n') then plainBreaks rest
    else if isBreak p.char then
      if isDocumentMark rest then ([plainBreak p.char], true, rest)
      else
        let (breaks, marked, rest) := plainBreaks rest
        (plainBreak p.char :: breaks, marked, rest)
    else ([], false, p :: rest)

/-- What separates two chunks of a plain scalar: nothing if it ends here. The flag tells whether
a line ended. -/
def plainSpaces (s : Spots) : List Char × Bool × Spots :=
  let (spaces, rest) := spanChars (· == ' ') s
  if isBreak (peek rest) then
    let (first, rest) := lineBreak rest
    if isDocumentMark rest then ([], true, rest)
    else
      let (more, marked, rest) := plainBreaks rest
      (if marked then [] else foldBreaks first more, true, rest)
  else (spaces, false, rest)

/-- Reads chunks as long as the scalar goes on; `between` is what separates the next one from
the last. -/
def plainFrom (flow : Bool) (indent : Int) : Nat → List Char → Bool → Spots →
    List Char × Bool × Spots
  | 0, _, broken, s => ([], broken, s)
  | fuel + 1, between, broken, s =>
    if peek s = '#' then ([], broken, s)
    else
      let (chunk, rest) := plainChunk flow s
      if chunk.isEmpty then ([], broken, s)
      else
        let (spaces, broken, rest) := plainSpaces rest
        if spaces.isEmpty || peek rest == '#' || (!flow && column rest < indent) then
          (between ++ chunk, broken, rest)
        else
          let (text, broken, rest) := plainFrom flow indent fuel spaces broken rest
          (between ++ chunk ++ text, broken, rest)

/-- A plain scalar, and whether it was followed by a line break. No scalar has more chunks than
`bound`, the length of the whole text. -/
def readPlain (bound : Nat) (flow : Bool) (indent : Int) (s : Spots) : Text × Bool × Spots :=
  let (text, broken, rest) := plainFrom flow indent bound [] false s
  (Text.ofChars text, broken, rest)

end ApiScaffold.Yaml
