import ApiScaffold.Yaml.Token.Block
import ApiScaffold.Yaml.Token.Quoted

namespace ApiScaffold.Yaml
open Spots

/-- A place at which a key may turn out to have begun: how many tokens came before it, and
whether nothing but a key can stand there. -/
structure KeyPlace where
  count : Nat
  required : Bool
  index : Nat
  line : Nat
  column : Nat
  deriving DecidableEq, Repr

/-- The tokens read so far, last one first and `size` of them, and what decides about the next:
the open flow collections, the indentation of the open block collections (innermost first),
whether a key may begin, and for each depth of flow the place where one may have begun. The
length of the whole text is a bound for everything that is read. -/
structure Scanner where
  bound : Nat
  rest : Spots
  tokens : List Token
  size : Nat
  flow : Nat
  indent : Int
  outer : List Int
  allowsKey : Bool
  places : List (Nat × KeyPlace)
  deriving Repr

namespace Scanner

def ofText (text : List Char) : Scanner :=
  ⟨text.length, spots text, [], 0, 0, -1, [], true, []⟩

def emit (t : Token) (s : Scanner) : Scanner :=
  { s with tokens := t :: s.tokens, size := s.size + 1 }

def insertAt (n : Nat) (t : Token) (ts : List Token) : List Token :=
  ts.take n ++ t :: ts.drop n

/-- Puts a token behind the first `count` ones. -/
def insert (count : Nat) (t : Token) (s : Scanner) : Scanner :=
  { s with tokens := insertAt (s.size - count) t s.tokens, size := s.size + 1 }

def place? (s : Scanner) : Option KeyPlace :=
  (s.places.find? (·.1 == s.flow)).map (·.2)

/-- Forgets the place of a key at this depth; one that is required must not be forgotten. -/
def dropPlace (s : Scanner) : Except Fault Scanner :=
  match s.place? with
  | some p =>
    if p.required then .error .key
    else .ok { s with places := s.places.filter (·.1 != s.flow) }
  | none => .ok s

/-- Notes that a key may begin here, if one may. -/
def savePlace (s : Scanner) : Except Fault Scanner :=
  if s.allowsKey then do
    let required := s.flow = 0 ∧ s.indent = column s.rest
    let s ← s.dropPlace
    .ok { s with
      places := (s.flow, ⟨s.size, required, index s.rest, line s.rest, column s.rest⟩) :: s.places }
  else .ok s

/-- A key must end on the line where it began, within 1024 characters. -/
def isStale (s : Scanner) (p : KeyPlace) : Bool :=
  p.line != line s.rest || 1024 < index s.rest - p.index

def dropStale (s : Scanner) : Except Fault Scanner :=
  if s.places.any fun p => s.isStale p.2 && p.2.required then .error .key
  else .ok { s with places := s.places.filter fun p => !s.isStale p.2 }

/-- Closes the block collections that are indented further than `column`; `outer` are the
indentations around the innermost. -/
def closeBlocks (column : Int) : List Int → Scanner → Scanner
  | outer, s =>
    if column < s.indent then
      match outer with
      | [] => { s.emit .blockEnd with indent := -1, outer := [] }
      | next :: outer => closeBlocks column outer { s.emit .blockEnd with indent := next, outer }
    else s

/-- Inside a flow collection indentation means nothing. -/
def unwind (column : Int) (s : Scanner) : Scanner :=
  if s.flow ≠ 0 then s else closeBlocks column s.outer s

/-- Opens a block collection if the column is further in than the innermost one. -/
def openBlock (column : Nat) (count : Nat) (t : Token) (s : Scanner) : Scanner :=
  if s.indent < column then
    { s.insert count t with indent := column, outer := s.indent :: s.outer }
  else s

/-- Moves to the next token over blanks, comments and line breaks. A line break allows a key,
except in a flow collection. -/
def gapFrom (flow : Bool) (allowsKey : Bool) : Nat → Spots → Bool × Spots
  | 0, s => (allowsKey, s)
  | fuel + 1, s =>
    let rest := skipComment (skipChars (· == ' ') s)
    if isBreak (peek rest) then gapFrom flow (allowsKey || !flow) fuel (lineBreak rest).2
    else (allowsKey, rest)

def skipGap (s : Scanner) : Scanner :=
  let start := if index s.rest = 0 ∧ peek s.rest = '\ufeff' then s.rest.drop 1 else s.rest
  let (allowsKey, rest) := gapFrom (s.flow != 0) s.allowsKey (s.bound + 1) start
  { s with allowsKey, rest }

/-- A token that begins no key and allows none behind it, at the start of a line. -/
def readMark (t : Token) (s : Scanner) : Except Fault Scanner := do
  let s ← (s.unwind (-1)).dropPlace
  .ok { s.emit t with allowsKey := false, rest := s.rest.drop 3 }

def readDirectiveLine (s : Scanner) : Except Fault Scanner := do
  let s ← (s.unwind (-1)).dropPlace
  let (t, rest) ← readDirective (s.rest.drop 1)
  .ok { s.emit t with allowsKey := false, rest }

def openFlow (t : Token) (s : Scanner) : Except Fault Scanner := do
  let s ← s.savePlace
  .ok { s.emit t with flow := s.flow + 1, allowsKey := true, rest := s.rest.drop 1 }

/-- A closing bracket closes some opening one. -/
def closeFlow (t : Token) (s : Scanner) : Except Fault Scanner := do
  let s ← s.dropPlace
  if s.flow = 0 then .error .misplaced
  else .ok { s.emit t with flow := s.flow - 1, allowsKey := false, rest := s.rest.drop 1 }

def readFlowEntry (s : Scanner) : Except Fault Scanner := do
  let s ← s.dropPlace
  .ok { s.emit .flowEntry with allowsKey := true, rest := s.rest.drop 1 }

/-- Opens a block collection for an indicator, which must stand where a key may. -/
def openFor (t : Token) (fault : Fault) (s : Scanner) : Except Fault Scanner :=
  if s.flow ≠ 0 then .ok s
  else if s.allowsKey then .ok (s.openBlock (column s.rest) s.size t)
  else .error fault

def readBlockEntry (s : Scanner) : Except Fault Scanner := do
  let s ← s.openFor .blockSequenceStart .entry
  let s ← s.dropPlace
  .ok { s.emit .blockEntry with allowsKey := true, rest := s.rest.drop 1 }

def readKey (s : Scanner) : Except Fault Scanner := do
  let s ← s.openFor .blockMappingStart .key
  let s ← s.dropPlace
  .ok { s.emit .key with allowsKey := s.flow = 0, rest := s.rest.drop 1 }

/-- A colon makes a key of what began at the noted place. -/
def readValue (s : Scanner) : Except Fault Scanner := do
  match s.place? with
  | some p =>
    let s := { s with places := s.places.filter (·.1 != s.flow) }.insert p.count .key
    let s := if s.flow = 0 then s.openBlock p.column p.count .blockMappingStart else s
    .ok { s.emit .value with allowsKey := false, rest := s.rest.drop 1 }
  | none =>
    let s ← s.openFor .blockMappingStart .key
    let s ← s.dropPlace
    .ok { s.emit .value with allowsKey := s.flow = 0, rest := s.rest.drop 1 }

/-- A token that a key may begin with. -/
def readKeyPart (read : Spots → Except Fault (Token × Spots)) (s : Scanner) :
    Except Fault Scanner := do
  let s ← s.savePlace
  let (t, rest) ← read s.rest
  .ok { s.emit t with allowsKey := false, rest }

def readBlockScalar (folded : Bool) (s : Scanner) : Except Fault Scanner := do
  let s ← s.dropPlace
  let (text, rest) ← readBlock s.bound folded s.indent (s.rest.drop 1)
  .ok { s.emit (.scalar text false) with allowsKey := true, rest }

def readPlainScalar (s : Scanner) : Except Fault Scanner := do
  let s ← s.savePlace
  let (text, broken, rest) := readPlain s.bound (s.flow != 0) (s.indent + 1) s.rest
  .ok { s.emit (.scalar text true) with allowsKey := broken, rest }

def finish (s : Scanner) : Except Fault Scanner := do
  let s ← (s.unwind (-1)).dropPlace
  .ok (s.emit .streamEnd)

/-- Whether a plain scalar may begin here. -/
def beginsPlain (flow : Bool) (s : Spots) : Bool :=
  let c := peek s
  !(isGapOrTab c || c ∈ "-?:,[]{}#&*!|>'\"%@`".toList) ||
    (!isGapOrTab (peekAt 1 s) && (c == '-' || (!flow && (c == '?' || c == ':'))))

/-- Reads one token at the next character that begins one. -/
def readToken (s : Scanner) : Except Fault Scanner :=
  let c := peek s.rest
  let flow := s.flow != 0
  let atStart := column s.rest == 0
  let gapNext := isGapOrTab (peekAt 1 s.rest)
  if c = '%' ∧ atStart then s.readDirectiveLine
  else if atStart ∧ isMark '-' s.rest then s.readMark .documentStart
  else if atStart ∧ isMark '.' s.rest then s.readMark .documentEnd
  else if c = '[' then s.openFlow .flowSequenceStart
  else if c = '{' then s.openFlow .flowMappingStart
  else if c = ']' then s.closeFlow .flowSequenceEnd
  else if c = '}' then s.closeFlow .flowMappingEnd
  else if c = ',' then s.readFlowEntry
  else if c = '-' ∧ gapNext then s.readBlockEntry
  else if c = '?' ∧ (flow ∨ gapNext) then s.readKey
  else if c = ':' ∧ (flow ∨ gapNext) then s.readValue
  else if c = '*' then
    s.readKeyPart fun r => (readAnchor (r.drop 1)).map fun (name, rest) => (.alias name, rest)
  else if c = '&' then
    s.readKeyPart fun r => (readAnchor (r.drop 1)).map fun (name, rest) => (.anchor name, rest)
  else if c = '!' then s.readKeyPart readTag
  else if c = '|' ∧ !flow then s.readBlockScalar false
  else if c = '>' ∧ !flow then s.readBlockScalar true
  else if c = '\'' ∨ c = '"' then
    s.readKeyPart fun r =>
      (readQuoted s.bound (c == '"') (r.drop 1)).map fun (text, rest) => (.scalar text false, rest)
  else if beginsPlain flow s.rest then s.readPlainScalar
  else .error .character

/-- The tokens before which no key can turn out to begin any more. -/
def settled (s : Scanner) : List Token :=
  let live := s.places.filter fun p => !s.isStale p.2
  s.tokens.reverse.take (live.foldl (fun n p => min n p.2.count) s.size)

/-- Reads what comes next: the end of the text or a token. -/
def step (s : Scanner) : Except Fault Scanner := do
  let s ← s.skipGap.dropStale
  let s := s.unwind (column s.rest)
  if isEnd (peek s.rest) then s.finish else s.readToken

/-- Reads tokens to the end of the text or to the first fault. -/
def run : Nat → Scanner → Tokens
  | 0, s => ⟨s.settled, some .misplaced⟩
  | fuel + 1, s =>
    match s.step with
    | .error f => ⟨s.settled, some f⟩
    | .ok next =>
      if next.tokens.head? = some .streamEnd then ⟨next.tokens.reverse, none⟩ else run fuel next

end Scanner

/-- The tokens of a text, which must hold printable characters only. -/
def Tokens.ofText (t : Text) : Tokens :=
  let text := t.map CodePoint.charOrNul
  if text.all isPrintable then (Scanner.ofText text).run (text.length + 1)
  else ⟨[], some .unprintable⟩

end ApiScaffold.Yaml
