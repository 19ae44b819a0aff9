import ApiScaffold.Text.Basic

namespace ApiScaffold.Yaml.Binary

/-- The six bits that a character stands for. -/
def sextet? (c : Char) : Option Nat :=
  if 'A' ≤ c ∧ c ≤ 'Z' then some (c.toNat - 65)
  else if 'a' ≤ c ∧ c ≤ 'z' then some (c.toNat - 71)
  else if '0' ≤ c ∧ c ≤ '9' then some (c.toNat + 4)
  else if c = '+' then some 62
  else if c = '/' then some 63
  else none

/-- Decodes from a group of which `filled` characters were read; `left` are the bits of the last
one that are not yet used and `pads` the padding since. Other characters are passed over, and
sufficient padding ends the text. -/
def decodeFrom (filled left pads : Nat) : List Char → Option (List UInt8)
  | [] => if filled = 0 then some [] else none
  | c :: rest =>
    if c = '=' then
      if 2 ≤ filled ∧ 4 ≤ filled + pads + 1 then some []
      else decodeFrom filled left (if 2 ≤ filled then pads + 1 else pads) rest
    else
      match sextet? c with
      | none => decodeFrom filled left pads rest
      | some n =>
        match filled with
        | 0 => decodeFrom 1 n 0 rest
        | 1 => (decodeFrom 2 (n % 16) 0 rest).map (UInt8.ofNat (left * 4 + n / 16) :: ·)
        | 2 => (decodeFrom 3 (n % 4) 0 rest).map (UInt8.ofNat (left * 16 + n / 4) :: ·)
        | _ => (decodeFrom 0 0 0 rest).map (UInt8.ofNat (left * 64 + n) :: ·)

/-- The bytes of a text in base 64, which must be ASCII. -/
def decode? (t : Text) : Option (List UInt8) :=
  ((Text.chars? t).filter (·.all (·.toNat < 128))).bind (decodeFrom 0 0 0)

end ApiScaffold.Yaml.Binary
