import ApiScaffold.Calendar
import ApiScaffold.Number.Numeral
import ApiScaffold.Text.Quoted

namespace ApiScaffold.Yaml

/-- Why a scalar that claims to be of some type has no value of it. -/
inductive ValueFault where
  | integer (f : Numeral.IntegerFault)
  | float (text : Text)
  | emptyNumber
  | placeTooLarge
  | truth (text : Text)
  | timestamp
  | timestampNotScalar
  | calendar (f : Calendar.Fault)
  | codePoint (n : Nat)
  deriving DecidableEq, Repr

/-- Why a text is no document. -/
inductive Fault where
  | unprintable
  | character
  | key
  | entry
  | escape
  | scalar
  | anchor
  | tag
  | directive
  | misplaced
  | alias
  | severalDocuments
  | construction
  | value (f : ValueFault)
  deriving DecidableEq, Repr

/-- A text in a message about numerals, which shows no more than 200 characters of it. -/
def shortened (text : Text) : String :=
  String.ofList ((Text.quoted text).toList.take 200)

def ValueFault.message : ValueFault → String
  | integer (.notNumeral base text) =>
    "invalid literal for int() with base " ++ toString base ++ ": " ++ shortened text
  | integer (.tooLong digits) =>
    "Exceeds the limit (" ++ toString Numeral.digitLimit ++
      " digits) for integer string conversion: value has " ++ toString digits ++
      " digits; use sys.set_int_max_str_digits() to increase the limit"
  | float text => "could not convert string to float: " ++ Text.quoted text
  | emptyNumber => "string index out of range"
  | placeTooLarge => "int too large to convert to float"
  | truth text => Text.quoted text
  | timestamp => "'NoneType' object has no attribute 'groupdict'"
  | timestampNotScalar => "expected string or bytes-like object, got 'list'"
  | calendar f => f.message
  | codePoint n =>
    if n < 0x80000000 then "chr() arg not in range(0x110000)"
    else "Python int too large to convert to C int"

end ApiScaffold.Yaml
