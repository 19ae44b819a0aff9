import ApiScaffold.Text.Basic
import ApiScaffold.Text.Printable

namespace ApiScaffold.Text

def hexDigits (width n : Nat) : List Char :=
  let digits := Nat.toDigits 16 n
  List.replicate (width - digits.length) '0' ++ digits

/-- The escape that names a number by as few hexadecimal digits as there is a form for. -/
def escape (n : Nat) : List Char :=
  if n < 0x100 then '\\' :: 'x' :: hexDigits 2 n
  else if n < 0x10000 then '\\' :: 'u' :: hexDigits 4 n
  else '\\' :: 'U' :: hexDigits 8 n

/-- A character between quotes: the quote, the backslash, the usual controls and whatever
does not print are escaped. -/
def quotedChar (quote c : Char) : List Char :=
  if c = quote ∨ c = '\\' then ['\\', c]
  else if c = '\n' then ['\\', 'n']
  else if c = '\r' then ['\\', 'r']
  else if c = '\t' then ['\\', 't']
  else if isPrintable c then [c]
  else escape c.toNat

def quotedPoint (quote : Char) : CodePoint → List Char
  | .char c => quotedChar quote c
  | p => escape p.toNat

/-- Single quotes, unless the text holds single quotes and no double ones. -/
def quoteFor (t : Text) : Char :=
  if .char '\'' ∈ t ∧ .char '"' ∉ t then '"' else '\''

/-- A text as messages show it. -/
def quoted (t : Text) : String :=
  let q := quoteFor t
  String.ofList (q :: t.flatMap (quotedPoint q) ++ [q])

/-- A text as it can always be written, with an escape for what is no character. -/
def escaped (t : Text) : String :=
  String.ofList <| t.flatMap fun
    | .char c => [c]
    | p => escape p.toNat

end ApiScaffold.Text
