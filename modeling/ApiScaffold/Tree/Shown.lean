import ApiScaffold.Number.Notation
import ApiScaffold.Number.Numeral
import ApiScaffold.Text.Quoted
import ApiScaffold.Tree

namespace ApiScaffold.Tree

/-- A byte string as messages show it: other bytes than printing ASCII are escaped. -/
def shownByte (quote : Char) (b : UInt8) : List Char :=
  let c := Char.ofNat b.toNat
  if c = quote ∨ c = '\\' then ['\\', c]
  else if c = '\n' then ['\\', 'n']
  else if c = '\r' then ['\\', 'r']
  else if c = '\t' then ['\\', 't']
  else if 32 ≤ b ∧ b < 127 then [c]
  else '\\' :: 'x' :: Text.hexDigits 2 b.toNat

def shownBytes (bs : List UInt8) : String :=
  let q := Text.quoteFor (bs.map fun b => .char (Char.ofNat b.toNat))
  String.ofList ('b' :: q :: bs.flatMap (shownByte q) ++ [q])

/-- A collection inside itself. -/
def shownAgain (t : Tree) : String :=
  match t.plain with
  | map _ => "\x7b...\x7d"
  | tuple _ => "(...)"
  | _ => "[...]"

mutual

/-- A value as it is shown inside the collections of the given labels. -/
def shownWithin (around : List Nat) : Tree → String
  | null => "None"
  | bool b => if b then "True" else "False"
  | int n => toString n
  | float x => x.text
  | str s => Text.quoted s
  | bytes bs => shownBytes bs
  | date d => d.shown
  | moment t => t.shown
  | list items => "[" ++ String.intercalate ", " (shownItems around items) ++ "]"
  | tuple items =>
    match shownItems around items with
    | [item] => "(" ++ item ++ ",)"
    | shown => "(" ++ String.intercalate ", " shown ++ ")"
  | set members =>
    match shownItems around members with
    | [] => "set()"
    | shown => "\x7b" ++ String.intercalate ", " shown ++ "\x7d"
  | map entries => "\x7b" ++ String.intercalate ", " (shownEntries around entries) ++ "\x7d"
  | recurring label t =>
    if label ∈ around then shownAgain t else shownWithin (label :: around) t

def shownItems (around : List Nat) : List Tree → List String
  | [] => []
  | item :: rest => shownWithin around item :: shownItems around rest

def shownEntries (around : List Nat) : List (Tree × Tree) → List String
  | [] => []
  | (key, value) :: rest =>
    (shownWithin around key ++ ": " ++ shownWithin around value) :: shownEntries around rest

end

/-- A value as it is shown inside other values and in messages, where texts are quoted. -/
def shown (t : Tree) : String :=
  t.shownWithin []

/-- A value as a name: a text stands for itself and dates are written plainly. -/
def name : Tree → Text
  | str s => s
  | date d => d.text
  | moment t => t.text " "
  | t => t.shown

/-- The least whole number that has too many digits to be written. -/
def unwritable : Nat :=
  Nat.pow 10 Numeral.digitLimit

mutual

/-- Whether every whole number in a value can be written. What is shown only once counts once. -/
def isWritableWithin (around : List Nat) : Tree → Bool
  | int n => n.natAbs < unwritable
  | list items | tuple items | set items => areItemsWritable around items
  | map entries => areEntriesWritable around entries
  | recurring label t => label ∈ around || isWritableWithin (label :: around) t
  | _ => true

def areItemsWritable (around : List Nat) : List Tree → Bool
  | [] => true
  | item :: rest => isWritableWithin around item && areItemsWritable around rest

def areEntriesWritable (around : List Nat) : List (Tree × Tree) → Bool
  | [] => true
  | (key, value) :: rest =>
    isWritableWithin around key && isWritableWithin around value && areEntriesWritable around rest

end

def isWritable (t : Tree) : Bool :=
  t.isWritableWithin []

/-- A value as a name, unless a number in it is too long to be written. -/
def name? (t : Tree) : Option Text :=
  if t.isWritable then some t.name else none

end ApiScaffold.Tree
