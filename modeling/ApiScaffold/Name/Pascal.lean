import ApiScaffold.Text.Case

namespace ApiScaffold.Name

/-- Puts the first character in upper case, whatever script it is of. -/
def capitalize : Text → Text
  | .char c :: rest => Text.ofChars (Text.upperForm c) ++ rest
  | t => t

/-- Joins the words of a text, each with a capital first letter; `opens` says that the next letter
or digit begins a word. Everything else than ASCII letters and digits separates words. -/
def joinWords (opens : Bool) : Text → List Char
  | [] => []
  | .char c :: rest =>
    if c.isAlphanum then (if opens then c.toUpper else c) :: joinWords false rest
    else joinWords true rest
  | _ :: rest => joinWords true rest

def pascal (name : Text) : Text :=
  Text.ofChars (joinWords true name)

def hook (function : Text) : Text :=
  "use" ++ pascal function

end ApiScaffold.Name
