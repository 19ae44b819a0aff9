namespace ApiScaffold.Text

def sharedStart : List Char → List Char → Nat
  | c :: s, d :: t => if c = d then sharedStart s t + 1 else 0
  | _, _ => 0

/-- The longest run at the front of `s` that stands somewhere in `t`: its place in `t` and its
length. Of several the first counts. -/
def longestFromStart (s : List Char) : List Char → Nat × Nat
  | [] => (0, 0)
  | c :: t =>
    let here := sharedStart s (c :: t)
    let (place, length) := longestFromStart s t
    if length > here then (place + 1, length) else (0, here)

/-- The longest run that two texts share: its places in both and its length. Of several the
first in `s` counts. -/
def longestShared : List Char → List Char → Nat × Nat × Nat
  | [], _ => (0, 0, 0)
  | c :: s, t =>
    let (here, length) := longestFromStart (c :: s) t
    let (place, other, more) := longestShared s t
    if more > length then (place + 1, other, more) else (0, here, length)

/-- How many characters two texts share: the longest run, and what is shared on either side of
it. `fuel` bounds the number of runs. -/
def sharedCount : Nat → List Char → List Char → Nat
  | 0, _, _ => 0
  | fuel + 1, s, t =>
    let (i, j, length) := longestShared s t
    if length = 0 then 0
    else
      sharedCount fuel (s.take i) (t.take j) + length +
        sharedCount fuel (s.drop (i + length)) (t.drop (j + length))

/-- Texts are close if they share at least three fifths of their characters. -/
def isClose (s t : String) : Bool :=
  let a := s.toList
  let b := t.toList
  3 * (a.length + b.length) ≤ 10 * sharedCount a.length a b

end ApiScaffold.Text
