import ApiScaffold.Yaml.Token.Plain
import ApiScaffold.Yaml.Token.Property

namespace ApiScaffold.Yaml
open Spots

def simpleEscape? : Char → Option Char
  | '0' => some '\x00'
  | 'a' => some '\x07'
  | 'b' => some '\x08'
  | 't' => some '\t'
  | '\t' => some '\t'
  | 'n' => some '\n'
  | 'v' => some '\x0b'
  | 'f' => some '\x0c'
  | 'r' => some '\r'
  | 'e' => some '\x1b'
  | ' ' => some ' '
  | '"' => some '"'
  | '\\' => some '\\'
  | '/' => some '/'
  | 'N' => some '\x85'
  | '_' => some '\xa0'
  | 'L' => some '\u2028'
  | 'P' => some '\u2029'
  | _ => none

def escapeWidth? : Char → Option Nat
  | 'x' => some 2
  | 'u' => some 4
  | 'U' => some 8
  | _ => none

/-- A number of exactly so many hexadecimal digits. -/
def readHex? (value : Nat) : Nat → Spots → Option (Nat × Spots)
  | 0, s => some (value, s)
  | width + 1, s =>
    match s with
    | [] => none
    | p :: rest =>
      match hexValue? p.char with
      | some d => readHex? (value * 16 + d) width rest
      | none => none

/-- The number that an escape spells, from its letter on. -/
def readCode? (s : Spots) : Option (Nat × Spots) := do
  let width ← escapeWidth? (peek s)
  readHex? 0 width (s.drop 1)

/-- A code point by its number. One that only pairs are made of stays alone, whatever follows. -/
def readCoded (s : Spots) : Except Fault (CodePoint × Spots) :=
  match readCode? s with
  | none => .error .escape
  | some (n, rest) =>
    if 0x10ffff < n then .error (.value (.codePoint n)) else .ok (.ofNat n, rest)

/-- The blank lines inside a quoted scalar, where no document mark may stand. -/
def quotedBreaks : Nat → Spots → Except Fault (List Char × Spots)
  | 0, s => .ok ([], s)
  | fuel + 1, s =>
    if isDocumentMark s then .error .scalar
    else
      let rest := skipChars isTabOrSpace s
      if isBreak (peek rest) then do
        let (first, rest) := lineBreak rest
        let (more, rest) ← quotedBreaks fuel rest
        .ok (first ++ more, rest)
      else .ok ([], rest)

/-- Blanks between two words of a quoted scalar. -/
def quotedSpaces (bound : Nat) (s : Spots) : Except Fault (List Char × Spots) :=
  let (spaces, rest) := spanChars isTabOrSpace s
  if isEnd (peek rest) then .error .scalar
  else if isBreak (peek rest) then do
    let (first, rest) := lineBreak rest
    let (more, rest) ← quotedBreaks bound rest
    .ok (foldBreaks first more, rest)
  else .ok (spaces, rest)

/-- What a backslash and the text behind it stand for. An escaped line break joins two lines. -/
def readEscape (bound : Nat) (s : Spots) : Except Fault (Text × Spots) :=
  let c := peek s
  match simpleEscape? c with
  | some e => .ok ([.char e], s.drop 1)
  | none =>
    if isBreak c then do
      let (breaks, rest) ← quotedBreaks bound (lineBreak s).2
      .ok (Text.ofChars breaks, rest)
    else do
      let (p, rest) ← readCoded s
      .ok ([p], rest)

/-- Reads up to the closing quote. -/
def quotedFrom (bound : Nat) (double : Bool) : Nat → Spots → Except Fault (Text × Spots)
  | 0, _ => .error .scalar
  | fuel + 1, s => do
    let c := peek s
    let next := s.drop 1
    let quote := if double then '"' else '\''
    let (text, rest) ←
      if c = quote then
        if !double && peek next == '\'' then .ok ([.char '\''], next.drop 1)
        else return ([], next)
      else if isGapOrTab c then
        (quotedSpaces bound s).map fun (spaces, rest) => (Text.ofChars spaces, rest)
      else if double && c == '\\' then readEscape bound next
      else .ok ([.char c], next)
    let (more, rest) ← quotedFrom bound double fuel rest
    .ok (text ++ more, rest)

/-- A quoted scalar, after its opening quote; `bound` is the length of the whole text. -/
def readQuoted (bound : Nat) (double : Bool) (s : Spots) : Except Fault (Text × Spots) :=
  quotedFrom bound double (bound + 1) s

end ApiScaffold.Yaml
