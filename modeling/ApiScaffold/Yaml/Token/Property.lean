import ApiScaffold.Text.Utf8
import ApiScaffold.Yaml.Fault
import ApiScaffold.Yaml.Spot
import ApiScaffold.Yaml.Token

namespace ApiScaffold.Yaml
open Spots

/-- The name of an anchor or alias, after its indicator. -/
def readAnchor (s : Spots) : Except Fault (String × Spots) :=
  let (name, rest) := spanChars isWordChar s
  let c := peek rest
  if name.isEmpty then .error .anchor
  else if isGapOrTab c || c ∈ "?:,]\x7d%@\x60".toList then .ok (String.ofList name, rest)
  else .error .anchor

def hexValue? (c : Char) : Option Nat :=
  if '0' ≤ c ∧ c ≤ '9' then some (c.toNat - 48)
  else if 'a' ≤ c ∧ c ≤ 'f' then some (c.toNat - 87)
  else if 'A' ≤ c ∧ c ≤ 'F' then some (c.toNat - 55)
  else none

/-- Reads escaped bytes as long as there are any. -/
def readEscapedBytes : Spots → Except Fault (List UInt8 × Spots)
  | p :: a :: b :: rest =>
    if p.char = '%' then
      match hexValue? a.char, hexValue? b.char with
      | some high, some low => do
        let (bytes, rest) ← readEscapedBytes rest
        .ok (UInt8.ofNat (high * 16 + low) :: bytes, rest)
      | _, _ => .error .tag
    else .ok ([], p :: a :: b :: rest)
  | s => if peek s = '%' then .error .tag else .ok ([], s)

def isUriChar (c : Char) : Bool :=
  c.isAlphanum || c ∈ "-;/?:@&=+$,_.!~*'()[]".toList

/-- The characters of a tag, where escapes spell bytes. -/
def readUriFrom : Nat → Spots → Except Fault (List Char × Spots)
  | 0, s => .ok ([], s)
  | fuel + 1, s => do
    let (plain, rest) := spanChars isUriChar s
    if peek rest = '%' then
      let (bytes, rest) ← readEscapedBytes rest
      match Text.Utf8.decode bytes with
      | .error _ => .error .tag
      | .ok decoded => do
        let (more, rest) ← readUriFrom fuel rest
        .ok (plain ++ decoded ++ more, rest)
    else .ok (plain, rest)

def readUri (s : Spots) : Except Fault (String × Spots) := do
  let c := peek s
  if isUriChar c || c == '%' then
    let (text, rest) ← readUriFrom s.length s
    .ok (String.ofList text, rest)
  else .error .tag

/-- A handle: an exclamation mark alone, or a word between two of them. -/
def readHandle (s : Spots) : Except Fault (String × Spots) :=
  match s with
  | [] => .error .tag
  | p :: rest =>
    if p.char ≠ '!' then .error .tag
    else if peek rest = ' ' then .ok ("!", rest)
    else
      let (name, after) := spanChars isWordChar rest
      if peek after = '!' then .ok (String.ofList ('!' :: name ++ ['!']), after.drop 1)
      else .error .tag

/-- A tag, from its first exclamation mark on. A handle is used if a second one comes before
the next gap. -/
def readTag (s : Spots) : Except Fault (Token × Spots) := do
  let next := peekAt 1 s
  let (token, rest) ←
    if next = '<' then do
      let (uri, rest) ← readUri (s.drop 2)
      if peek rest = '>' then .ok (Token.tag none uri, rest.drop 1) else .error .tag
    else if isGapOrTab next then .ok (Token.tag none "!", s.drop 1)
    else do
      let word := (s.drop 1).takeWhile (!isGap ·.char)
      let (handle, rest) ←
        if word.any (·.char == '!') then readHandle s else .ok ("!", s.drop 1)
      let (suffix, rest) ← readUri rest
      .ok (Token.tag (some handle) suffix, rest)
  if isGap (peek rest) then .ok (token, rest) else .error .tag

/-- The value of a number in a directive, whose digits are limited like those of any numeral. -/
def readDirectiveNumber (digits : List Char) : Except Fault Nat :=
  if Numeral.digitLimit < digits.length then
    .error (.value (.integer (.tooLong digits.length)))
  else if digits.isEmpty then .error .directive
  else .ok (Numeral.ofDigits (digits.map fun c => c.toNat - 48))

/-- A version: two numbers with a point between them, of which the first counts. -/
def readVersion (s : Spots) : Except Fault (Directive × Spots) := do
  let (digits, rest) := spanChars Char.isDigit s
  let major ← readDirectiveNumber digits
  if peek rest ≠ '.' then .error .directive
  else
    let (digits, rest) := spanChars Char.isDigit (rest.drop 1)
    let _ ← readDirectiveNumber digits
    if isGap (peek rest) then .ok (.version major, rest) else .error .directive

def readTagHandle (s : Spots) : Except Fault (Directive × Spots) := do
  let (handle, rest) ← readHandle s
  if peek rest ≠ ' ' then .error .directive
  else
    let (start, rest) ← readUri (skipChars (· == ' ') rest)
    if isGap (peek rest) then .ok (.tagHandle handle start, rest) else .error .directive

/-- The end of a line on which only blanks and a comment may follow. -/
def endLine (fault : Fault) (s : Spots) : Except Fault Spots :=
  let rest := skipComment (skipChars (· == ' ') s)
  if isBreakOrEnd (peek rest) then .ok (lineBreak rest).2 else .error fault

/-- A directive, after its percent sign. -/
def readDirective (s : Spots) : Except Fault (Token × Spots) := do
  let (name, rest) := spanChars isWordChar s
  if name.isEmpty || !isGap (peek rest) then .error .directive
  else
    let (d, rest) ←
      if name = "YAML".toList then readVersion (skipChars (· == ' ') rest)
      else if name = "TAG".toList then readTagHandle (skipChars (· == ' ') rest)
      else .ok (.other, skipChars (!isBreakOrEnd ·) rest)
    .ok (.directive d, ← endLine .directive rest)

end ApiScaffold.Yaml
