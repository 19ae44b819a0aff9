import ApiScaffold.Text.Utf8
import ApiScaffold.Tree

namespace ApiScaffold

/-- One step from a value to a part of it. -/
inductive Step where
  | field (name : Text)
  | index (n : Int)
  deriving DecidableEq, Repr

inductive Fault where
  | missing
  | notText
  | notEncoded
  | notTruth
  | unknownTruth
  | notAllowed
  | notObject
  | notList
  | notMap
  | notTyped
  | noKind
  | unknownKind
  | tooDeep
  | notPath
  | unexpected
  | keyNotText
  | badIdentifier (name : Text)
  | badSqlType (name : Text)
  deriving DecidableEq, Repr

/-- What is wrong with a part of a value. -/
structure Issue where
  location : List Step
  fault : Fault
  deriving DecidableEq, Repr

/-- The issue as it is seen from one step above. -/
def Issue.below (step : Step) (i : Issue) : Issue :=
  { i with location := step :: i.location }

/-- A value that passed every check, or all that is wrong with the data, in order. -/
inductive Checked (α : Type) where
  | valid (a : α)
  | invalid (issues : List Issue)
  deriving Repr

namespace Checked
variable {α β : Type}

def value? : Checked α → Option α
  | valid a => some a
  | invalid _ => none

def issues : Checked α → List Issue
  | valid _ => []
  | invalid issues => issues

def issue (fault : Fault) : Checked α :=
  .invalid [⟨[], fault⟩]

def map (f : α → β) : Checked α → Checked β
  | valid a => valid (f a)
  | invalid issues => invalid issues

/-- The issues of both sides are kept. -/
def seq (f : Checked (α → β)) (x : Checked α) : Checked β :=
  match f, x with
  | valid f, valid a => valid (f a)
  | valid _, invalid issues => invalid issues
  | invalid issues, valid _ => invalid issues
  | invalid issues, invalid more => invalid (issues ++ more)

instance : Functor Checked := ⟨map, fun a x => map (fun _ => a) x⟩

instance : Pure Checked := ⟨valid⟩

instance : Seq Checked := ⟨fun f x => seq f (x ())⟩

/-- Places the issues below a step. -/
def under (step : Step) : Checked α → Checked α
  | valid a => valid a
  | invalid issues => invalid (issues.map (·.below step))

/-- Checks every member at its index. -/
def each (check : Tree → Checked α) : Nat → List Tree → Checked (List α)
  | _, [] => valid []
  | n, item :: rest =>
    seq (map List.cons ((check item).under (.index n))) (each check (n + 1) rest)

/-- The value of a field, or its default where the field is left out. -/
def field (entries : Tree.Entries) (name : Text) (default : Option α)
    (check : Tree → Checked α) : Checked α :=
  match Tree.find? (.str name) entries with
  | some value => (check value).under (.field name)
  | none =>
    match default with
    | some a => valid a
    | none => (issue .missing).under (.field name)

/-- Bytes are a text if they encode one. -/
def text : Tree → Checked Text
  | .str s => valid s
  | .bytes bs =>
    match Text.Utf8.decode bs with
    | .ok s => valid (Text.ofChars s)
    | .error _ => issue .notEncoded
  | _ => issue .notText

def optionalText : Tree → Checked (Option Text)
  | .null => valid none
  | t => map some (text t)

def isWordOf (words : List Text) (s : Text) : Bool :=
  s.map (·.map Char.toLower) ∈ words

/-- The words that stand for truth values, in any case. -/
def truthWord? (s : Text) : Option Bool :=
  if isWordOf ["1", "t", "y", "yes", "on", "true"] s then some true
  else if isWordOf ["0", "f", "n", "no", "off", "false"] s then some false
  else none

/-- Whether a number fits in 64 bits with its sign. -/
def isWord64 (n : Int) : Bool :=
  -0x8000000000000000 ≤ n && n < 0x8000000000000000

/-- Zero and one are truth values too; a number that does not fit in 64 bits is no candidate
for one. -/
def wholeTruth (n : Int) : Checked Bool :=
  if n = 0 then valid false
  else if n = 1 then valid true
  else if isWord64 n then issue .unknownTruth
  else issue .notTruth

def truth : Tree → Checked Bool
  | .bool b => valid b
  | .int n => wholeTruth n
  | .float x =>
    match x.toInt? with
    | some n => wholeTruth n
    | none => issue .notTruth
  | .str s =>
    match truthWord? s with
    | some b => valid b
    | none => issue .unknownTruth
  | _ => issue .notTruth

def list (check : Tree → Checked α) : Tree → Checked (List α)
  | .list items | .tuple items | .set items => each check 0 items
  | _ => issue .notList

/-- One of a fixed set of words. -/
def word (read? : Text → Option α) : Tree → Checked α
  | .str s =>
    match read? s with
    | some a => valid a
    | none => issue .notAllowed
  | _ => issue .notAllowed

def object (check : Tree.Entries → Checked α) : Tree → Checked α
  | .map entries => check entries
  | _ => issue .notObject

end Checked
end ApiScaffold
