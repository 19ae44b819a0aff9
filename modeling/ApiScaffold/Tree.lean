import ApiScaffold.Calendar
import ApiScaffold.Number.Binary64
import ApiScaffold.Text.Basic

namespace ApiScaffold

/-- A document value. The entries of a map keep their order; the keys of a map and the members
of a set may be any values. A collection that can be met again inside itself has a label, which
tells it from all others. -/
inductive Tree where
  | null
  | bool (b : Bool)
  | int (n : Int)
  | float (x : Binary64)
  | str (s : Text)
  | bytes (bs : List UInt8)
  | date (d : Calendar.Date)
  | moment (t : Calendar.Moment)
  | list (items : List Tree)
  | tuple (items : List Tree)
  | set (members : List Tree)
  | map (entries : List (Tree × Tree))
  | recurring (label : Nat) (t : Tree)
  deriving Repr, Inhabited

namespace Tree

abbrev Entries := List (Tree × Tree)

/-- The value without its label. -/
def plain : Tree → Tree
  | recurring _ t => t.plain
  | t => t

/-- What counts as absent where a value may be left out: null, false, zero and whatever is empty. -/
def isTruthy : Tree → Bool
  | null => false
  | bool b => b
  | int n => n != 0
  | float x => !x.isZero
  | str s => s != ""
  | bytes bs => !bs.isEmpty
  | list items | tuple items | set items => !items.isEmpty
  | map entries => !entries.isEmpty
  | date _ | moment _ => true
  | recurring _ t => t.isTruthy

def isNull : Tree → Bool
  | null => true
  | _ => false

def str? : Tree → Option Text
  | str s => some s
  | _ => none

def map? (t : Tree) : Option Entries :=
  match t.plain with
  | map entries => some entries
  | _ => none

def list? (t : Tree) : Option (List Tree) :=
  match t.plain with
  | list items => some items
  | _ => none

/-- The items of a list; everything else has none. -/
def items (t : Tree) : List Tree :=
  t.list?.getD []

/-- The integer that a number or a truth value is equal to. -/
def whole? : Tree → Option Int
  | bool b => some (if b then 1 else 0)
  | int n => some n
  | float x => x.toInt?
  | _ => none

/-- Equality of keys. Numbers and truth values are compared as numbers, so `1`, `1.0` and `true`
are one key. -/
def sameKey : Tree → Tree → Bool
  | null, null => true
  | str s, str t => s == t
  | bytes s, bytes t => s == t
  | date s, date t => s == t
  | moment s, moment t => s.same t
  | float x, float y => x.sameNumber y
  | s, t =>
    match s.whole?, t.whole? with
    | some m, some n => m == n
    | _, _ => false

def find? (key : Tree) : Entries → Option Tree
  | [] => none
  | (k, v) :: rest => if k.sameKey key then some v else find? key rest

/-- A repeated key keeps its first place and takes the new value. -/
def put (key value : Tree) : Entries → Entries
  | [] => [(key, value)]
  | (k, v) :: rest => if k.sameKey key then (k, value) :: rest else (k, v) :: put key value rest

def ofEntries (entries : Entries) : Tree :=
  .map (entries.foldl (fun es e => put e.1 e.2 es) [])

/-- The value of a text key in a map. -/
def get? (t : Tree) (name : Text) : Option Tree :=
  t.map?.bind (find? (.str name))

/-- The value of a text key, or null where a map has none. -/
def get (t : Tree) (name : Text) : Tree :=
  (t.get? name).getD null

def has (t : Tree) (name : Text) : Bool :=
  (t.get? name).isSome

end Tree
end ApiScaffold
