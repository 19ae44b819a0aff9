namespace ApiScaffold.Yaml

/-- A character and where it stands. -/
structure Spot where
  char : Char
  index : Nat
  line : Nat
  column : Nat
  deriving DecidableEq, Repr

/-- What is left of a text. The last spot holds a NUL, which no document may contain, so there is
always a next character. -/
abbrev Spots := List Spot

/-- The characters that a document may contain. -/
def isPrintable (c : Char) : Bool :=
  let n := c.toNat
  n == 9 || n == 10 || n == 13 || (0x20 ≤ n && n ≤ 0x7e) || n == 0x85 ||
    (0xa0 ≤ n && n ≤ 0xd7ff) || (0xe000 ≤ n && n ≤ 0xfffd) || 0x10000 ≤ n

def isBreak (c : Char) : Bool :=
  c == '\n' || c == '\r' || c == '\x85' || c == '\u2028' || c == '\u2029'

def isEnd (c : Char) : Bool :=
  c == '\x00'

def isBreakOrEnd (c : Char) : Bool :=
  isBreak c || isEnd c

/-- The characters that end a tag or directive. -/
def isGap (c : Char) : Bool :=
  c == ' ' || isBreakOrEnd c

/-- The characters that end most tokens. -/
def isGapOrTab (c : Char) : Bool :=
  c == '\t' || isGap c

def isTabOrSpace (c : Char) : Bool :=
  c == ' ' || c == '\t'

/-- A character of an anchor or of a handle. -/
def isWordChar (c : Char) : Bool :=
  c.isAlphanum || c == '-' || c == '_'

/-- Finds the place of every character; a byte order mark takes no column. -/
def spotsFrom (index line column : Nat) : List Char → Spots
  | [] => [⟨'\x00', index, line, column⟩]
  | c :: rest =>
    let ends := (isBreak c && c != '\r') || (c == '\r' && rest.head? != some '\n')
    ⟨c, index, line, column⟩ ::
      (if ends then spotsFrom (index + 1) (line + 1) 0 rest
      else spotsFrom (index + 1) line (if c = '\ufeff' then column else column + 1) rest)

def spots (text : List Char) : Spots :=
  spotsFrom 0 0 0 text

namespace Spots

def peek (s : Spots) : Char :=
  match s with
  | [] => '\x00'
  | p :: _ => p.char

def peekAt (n : Nat) (s : Spots) : Char :=
  peek (s.drop n)

def column (s : Spots) : Nat :=
  match s with
  | [] => 0
  | p :: _ => p.column

def line (s : Spots) : Nat :=
  match s with
  | [] => 0
  | p :: _ => p.line

def index (s : Spots) : Nat :=
  match s with
  | [] => 0
  | p :: _ => p.index

def skipChars (p : Char → Bool) (s : Spots) : Spots :=
  s.dropWhile (p ·.char)

/-- The characters at the front that pass a test, and the rest. -/
def spanChars (p : Char → Bool) (s : Spots) : List Char × Spots :=
  ((s.takeWhile (p ·.char)).map (·.char), s.dropWhile (p ·.char))

/-- Reads a line break, if one is next. Two kinds of break are kept, all others are line feeds. -/
def lineBreak : Spots → List Char × Spots
  | [] => ([], [])
  | p :: rest =>
    if p.char = '\r' ∧ peek rest = '\n' then (['\n'], rest.drop 1)
    else if p.char = '\n' ∨ p.char = '\r' ∨ p.char = '\x85' then (['\n'], rest)
    else if isBreak p.char then ([p.char], rest)
    else ([], p :: rest)

/-- Whether three equal marks stand here, with nothing directly behind them. -/
def isMark (c : Char) (s : Spots) : Bool :=
  peek s == c && peekAt 1 s == c && peekAt 2 s == c && isGapOrTab (peekAt 3 s)

def isDocumentMark (s : Spots) : Bool :=
  isMark '-' s || isMark '.' s

/-- Skips a comment up to the end of its line. -/
def skipComment (s : Spots) : Spots :=
  if peek s = '#' then skipChars (!isBreakOrEnd ·) s else s

end Spots
end ApiScaffold.Yaml
