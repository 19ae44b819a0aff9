import ApiScaffold.Number.Numeral
import ApiScaffold.Yaml.Fault

namespace ApiScaffold.Yaml

/-- A text in the form of a timestamp, which need not name a day that there is. The offset is in
minutes. -/
structure Timestamp where
  year : List Char
  month : List Char
  day : List Char
  time : Option (List Char × List Char × List Char × List Char × Option Int)
  deriving DecidableEq, Repr

namespace Timestamp

/-- Between `least` and `most` digits, as many as there are. -/
def digits? (least most : Nat) (s : List Char) : Option (List Char × List Char) :=
  let ds := (s.take most).takeWhile Char.isDigit
  if least ≤ ds.length then some (ds, s.drop ds.length) else none

def after? (c : Char) : List Char → Option (List Char)
  | [] => none
  | d :: rest => if c = d then some rest else none

def number (ds : List Char) : Nat :=
  Numeral.ofDigits (ds.map fun c => c.toNat - 48)

def isBlank (c : Char) : Bool :=
  c == ' ' || c == '\t'

/-- What may follow the seconds: nothing, `Z`, or a sign with hours and perhaps minutes. -/
def offset? (s : List Char) : Option (Option Int) :=
  match s.dropWhile isBlank with
  | [] => if s.isEmpty then some none else none
  | ['Z'] => some (some 0)
  | sign :: rest => do
    let sign : Int ← if sign = '+' then some 1 else if sign = '-' then some (-1) else none
    let (hours, rest) ← digits? 1 2 rest
    let (minutes, rest) ←
      if rest.isEmpty then some (['0'], [])
      else do digits? 2 2 (← after? ':' rest)
    if rest.isEmpty then some (some (sign * (number hours * 60 + number minutes))) else none

def fraction (s : List Char) : List Char × List Char :=
  match s with
  | '.' :: rest => (rest.takeWhile Char.isDigit, rest.dropWhile Char.isDigit)
  | _ => ([], s)

/-- The separator of date and time: a letter, or blanks. -/
def afterDate? (s : List Char) : Option (List Char) :=
  match s with
  | 'T' :: rest | 't' :: rest => some rest
  | c :: rest => if isBlank c then some (rest.dropWhile isBlank) else none
  | [] => none

def read? (s : List Char) : Option Timestamp := do
  let (year, rest) ← digits? 4 4 s
  let (month, rest) ← digits? 1 2 (← after? '-' rest)
  let (day, rest) ← digits? 1 2 (← after? '-' rest)
  if rest.isEmpty then some ⟨year, month, day, none⟩
  else do
    let (hour, rest) ← digits? 1 2 (← afterDate? rest)
    let (minute, rest) ← digits? 2 2 (← after? ':' rest)
    let (second, rest) ← digits? 2 2 (← after? ':' rest)
    let (fraction, rest) := fraction rest
    let offset ← offset? rest
    some ⟨year, month, day, some (hour, minute, second, fraction, offset)⟩

/-- A plain scalar that is a date alone must write month and day with two digits. -/
def isPlain (t : Timestamp) : Bool :=
  t.time.isSome || (t.month.length == 2 && t.day.length == 2)

/-- Six digits of a fraction; what is left out is zero and what is more is dropped. -/
def microseconds (fraction : List Char) : Nat :=
  let ds := fraction.take 6
  number (ds ++ List.replicate (6 - ds.length) '0')

def toDate (t : Timestamp) : Except Calendar.Fault Calendar.Date :=
  Calendar.Date.of? (number t.year) (number t.month) (number t.day)

def toMoment (t : Timestamp) (hour minute second fraction : List Char) (offset : Option Int) :
    Except Calendar.Fault Calendar.Moment :=
  Calendar.Moment.of? (number t.year) (number t.month) (number t.day) (number hour) (number minute)
    (number second) (microseconds fraction) offset

end Timestamp
end ApiScaffold.Yaml
