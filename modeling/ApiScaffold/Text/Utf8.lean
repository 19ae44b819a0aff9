import ApiScaffold.Text.Basic

namespace ApiScaffold.Text.Utf8

inductive Reason where
  | invalidStart
  | invalidContinuation
  | unexpectedEnd
  deriving DecidableEq, Repr

/-- The bytes that are no encoded character: where they begin, how many they are, and the
first of them. -/
structure Fault where
  position : Nat
  length : Nat
  byte : UInt8
  reason : Reason
  deriving DecidableEq, Repr

def isContinuation (b : UInt8) : Bool :=
  0x80 ≤ b && b < 0xc0

/-- The second byte is restricted so that no code point has a longer form than it needs, is a
surrogate, or lies past the last one. -/
def allowsSecond (first second : UInt8) : Bool :=
  isContinuation second &&
    (first != 0xe0 || 0xa0 ≤ second) && (first != 0xed || second < 0xa0) &&
    (first != 0xf0 || 0x90 ≤ second) && (first != 0xf4 || second < 0x90)

def bits (b : UInt8) (width : Nat) : Nat :=
  b.toNat % (1 <<< width)

/-- How many bytes a first byte announces, and none for a byte that begins no character. -/
def announced? (first : UInt8) : Option Nat :=
  if first < 0x80 then some 1
  else if first < 0xc2 then none
  else if first < 0xe0 then some 2
  else if first < 0xf0 then some 3
  else if first < 0xf5 then some 4
  else none

/-- Reads on from the byte number `position`; `read` holds the characters so far, last one
first. -/
def decodeFrom (position : Nat) (read : List Char) : List UInt8 → Except Fault (List Char)
  | [] => .ok read.reverse
  | first :: rest =>
    match announced? first with
    | none => .error ⟨position, 1, first, .invalidStart⟩
    | some 1 => decodeFrom (position + 1) (Char.ofNat first.toNat :: read) rest
    | some count =>
      match rest with
      | [] => .error ⟨position, 1, first, .unexpectedEnd⟩
      | second :: rest =>
        if !(allowsSecond first second) then .error ⟨position, 1, first, .invalidContinuation⟩
        else if count == 2 then
          decodeFrom (position + 2)
            (Char.ofNat (bits first 5 * 64 + bits second 6) :: read) rest
        else
          match rest with
          | [] => .error ⟨position, 2, first, .unexpectedEnd⟩
          | third :: rest =>
            if !(isContinuation third) then .error ⟨position, 2, first, .invalidContinuation⟩
            else if count == 3 then
              decodeFrom (position + 3)
                (Char.ofNat ((bits first 4 * 64 + bits second 6) * 64 + bits third 6) :: read) rest
            else
              match rest with
              | [] => .error ⟨position, 3, first, .unexpectedEnd⟩
              | fourth :: rest =>
                if !(isContinuation fourth) then
                  .error ⟨position, 3, first, .invalidContinuation⟩
                else
                  decodeFrom (position + 4)
                    (Char.ofNat (((bits first 3 * 64 + bits second 6) * 64 + bits third 6) * 64 +
                      bits fourth 6) :: read) rest

def decode (bytes : List UInt8) : Except Fault (List Char) :=
  decodeFrom 0 [] bytes

/-- The bytes of a text; none if it holds what is no character. -/
def encode? (t : Text) : Option (List UInt8) :=
  (chars? t).map (·.flatMap String.utf8EncodeChar)

/-- The bytes of a name. A byte that belongs to no character stands in it as the half of a pair
that has the byte's number behind `0xdc00`; another half has no byte. -/
def encodePoint? : CodePoint → Option (List UInt8)
  | .char c => some (String.utf8EncodeChar c)
  | .surrogate n =>
    if 0x480 ≤ n.val ∧ n.val < 0x500 then some [UInt8.ofNat (n.val - 0x400)] else none

def encodeName? (t : Text) : Option (List UInt8) :=
  (t.mapM encodePoint?).map List.flatten

/-- The character at the front of bytes, and how many more bytes it has than one. -/
def front? (bytes : List UInt8) : Option (Char × Nat) :=
  (List.range 4).findSome? fun more =>
    match decode (bytes.take (more + 1)) with
    | .ok [c] => some (c, more)
    | _ => none

/-- The name that bytes spell, where `left` of them still belong to the last character. Each byte
that belongs to none stands as a half of a pair. -/
def decodeName (left : Nat) : List UInt8 → Text
  | [] => []
  | b :: rest =>
    match left with
    | n + 1 => decodeName n rest
    | 0 =>
      match front? (b :: rest) with
      | some (c, more) => .char c :: decodeName more rest
      | none => .ofNat (0xdc00 + b.toNat) :: decodeName 0 rest

def Reason.message : Reason → String
  | invalidStart => "invalid start byte"
  | invalidContinuation => "invalid continuation byte"
  | unexpectedEnd => "unexpected end of data"

def hexByte (b : UInt8) : String :=
  String.ofList [Nat.digitChar (b.toNat / 16), Nat.digitChar (b.toNat % 16)]

/-- A single byte is shown, a longer stretch is named by its first and last position. -/
def Fault.message (f : Fault) : String :=
  if f.length == 1 then
    "'utf-8' codec can't decode byte 0x" ++ hexByte f.byte ++ " in position " ++
      toString f.position ++ ": " ++ f.reason.message
  else
    "'utf-8' codec can't decode bytes in position " ++ toString f.position ++ "-" ++
      toString (f.position + f.length - 1) ++ ": " ++ f.reason.message

end ApiScaffold.Text.Utf8
