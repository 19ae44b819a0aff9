import ApiScaffold.Text.Basic

namespace ApiScaffold.Text

/-- White space of any script: the ASCII blanks and separators, NEL, the
no-break space and the Unicode spaces. The zero-width characters are not blank. -/
def isBlank (p : CodePoint) : Bool :=
  let n := p.toNat
  (9 ≤ n && n ≤ 13) || (28 ≤ n && n ≤ 32) || n == 0x85 || n == 0xa0 || n == 0x1680 ||
    (0x2000 ≤ n && n ≤ 0x200a) || n == 0x2028 || n == 0x2029 || n == 0x202f ||
    n == 0x205f || n == 0x3000

/-- Drops what is of a class at the end, by keeping an item that is not or has something after
it. -/
def dropLastWhile {α : Type} (p : α → Bool) : List α → List α
  | [] => []
  | a :: rest =>
    match dropLastWhile p rest with
    | [] => if p a then [] else [a]
    | kept => a :: kept

def trimStart (t : Text) : Text :=
  t.dropWhile isBlank

def trimEnd (t : Text) : Text :=
  dropLastWhile isBlank t

def trim (t : Text) : Text :=
  trimEnd (trimStart t)

end ApiScaffold.Text
