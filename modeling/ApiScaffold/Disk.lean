import ApiScaffold.Disk.Path
import ApiScaffold.Text.Utf8

namespace ApiScaffold

/-- A place on a disk: the names that lead to it from the top, each as its bytes. -/
abbrev Place := List (List UInt8)

inductive Entry where
  | directory
  | file (bytes : List UInt8)
  deriving DecidableEq, Repr

/-- What stands where, and the location at which relative paths begin. -/
structure Disk where
  base : Place
  entries : List (Place × Entry)
  deriving DecidableEq, Repr

namespace Disk

/-- Why a path leads to no place, or why nothing can be made there. -/
inductive Fault where
  | missing
  | occupied
  | notDirectory
  | isDirectory
  | nameTooLong
  | nul
  | unencodable
  deriving DecidableEq, Repr

def Fault.message : Fault → String
  | missing => "No such file or directory"
  | occupied => "File exists"
  | notDirectory => "Not a directory"
  | isDirectory => "Is a directory"
  | nameTooLong => "File name too long"
  | nul => "embedded null byte"
  | unencodable => "surrogates not allowed"

/-- Whether a fault is in what was to be written, which no disk can hold. -/
def Fault.isFinal : Fault → Bool
  | nul | unencodable => true
  | _ => false

/-- The top is always a directory. -/
def get? (d : Disk) (l : Place) : Option Entry :=
  if l = [] then some .directory else (d.entries.find? (·.1 == l)).map (·.2)

/-- What stood there before is gone. -/
def put (l : Place) (e : Entry) (d : Disk) : Disk :=
  { d with entries := (l, e) :: d.entries.filter (·.1 != l) }

theorem get?_put (d : Disk) (l l' : Place) (e : Entry) (h : l ≠ []) :
    (d.put l e).get? l' = if l = l' then some e else d.get? l' := by
  by_cases hl : l = l'
  · subst hl
    simp [get?, put, h]
  · simp only [get?, put, List.find?_cons, List.find?_filter]
    have he : (l == l') = false := by simpa using hl
    simp only [he, if_neg hl]
    split
    · rfl
    · congr 2
      funext x
      by_cases hx : x.1 = l'
      · subst hx
        simp [Ne.symm hl]
      · simp [hx]

/-- How many bytes a name may have. -/
def nameLimit : Nat :=
  255

/-- How many bytes a path may have. -/
def pathLimit : Nat :=
  4095

/-- The name that leads back up. -/
def upward : List UInt8 :=
  [46, 46]

/-- Follows names from a location. A name is looked up in a directory only; what the last one
names need not be there. -/
def follow (d : Disk) (here : Place) : Place → Except Fault Place
  | [] => .ok here
  | name :: rest =>
    match d.get? here with
    | none => .error .missing
    | some (.file _) => .error .notDirectory
    | some .directory =>
      if name = upward then follow d here.dropLast rest
      else if name.length > nameLimit then .error .nameTooLong
      else follow d (here ++ [name]) rest

/-- The place of a path. A path that has no bytes is refused before anything else is looked at. -/
def locate (d : Disk) (p : Path) : Except Fault Place :=
  match Text.Utf8.encodeName? p.text, p.parts.mapM Text.Utf8.encodeName? with
  | some bytes, some names =>
    if bytes.contains 0 then .error .nul
    else if bytes.length > pathLimit then .error .nameTooLong
    else d.follow (if p.anchor = .relative then d.base else []) names
  | _, _ => .error .unencodable

/-- What a reader finds at a path. -/
inductive Status where
  | missing
  | nameTooLong
  | directory
  | file (bytes : List UInt8)
  deriving DecidableEq, Repr

def look (d : Disk) (p : Path) : Status :=
  match d.locate p with
  | .error .nameTooLong => .nameTooLong
  | .error _ => .missing
  | .ok l =>
    match d.get? l with
    | none => .missing
    | some .directory => .directory
    | some (.file bytes) => .file bytes

def makeDirectory (d : Disk) (p : Path) : Except Fault Disk := do
  let l ← d.locate p
  if (d.get? l).isSome then .error .occupied else .ok (d.put l .directory)

/-- A directory that is there already will do. -/
def ensureDirectory (d : Disk) (p : Path) : Disk × Option Fault :=
  match d.makeDirectory p with
  | .ok made => (made, none)
  | .error f => (d, if d.look p = .directory then none else some f)

/-- Whether a directory on the way to a path is missing. -/
def lacksParent (d : Disk) (p : Path) : Bool :=
  match d.locate p with
  | .error .missing => true
  | _ => false

/-- Makes a directory and those it lies in. Directories made before a fault stay. -/
def makeDirectories (d : Disk) (p : Path) : Disk × Option Fault :=
  if _h : p.parts ≠ [] ∧ d.lacksParent p then
    match d.makeDirectories p.parent with
    | (made, none) => made.ensureDirectory p
    | failed => failed
  else d.ensureDirectory p
termination_by p.parts.length
decreasing_by
  have := List.length_pos_iff.2 _h.1
  simp only [Path.parent, List.length_dropLast]
  omega

def create (d : Disk) (p : Path) (bytes : List UInt8) : Except Fault Disk := do
  let l ← d.locate p
  if d.get? l = some .directory then .error .isDirectory else .ok (d.put l (.file bytes))

/-- Writes a file and makes the directories that it lies in. -/
def write (d : Disk) (p : Path) (bytes : List UInt8) : Disk × Option Fault :=
  match d.makeDirectories p.parent with
  | (made, none) =>
    match made.create p bytes with
    | .ok written => (written, none)
    | .error f => (made, some f)
  | failed => failed

/-- Writes a text into a file. One that has no bytes leaves an empty file. -/
def writeText (d : Disk) (p : Path) (t : Text) : Disk × Option Fault :=
  match Text.Utf8.encode? t with
  | some bytes => d.write p bytes
  | none =>
    let (written, fault) := d.write p []
    (written, some (fault.getD .unencodable))

/-- The files below the base, by their paths from there. -/
def files (d : Disk) : List (Path × List UInt8) :=
  d.entries.filterMap fun
    | (l, .file bytes) =>
      if d.base.isPrefixOf l then
        some (⟨.relative, (l.drop d.base.length).map (Text.Utf8.decodeName 0)⟩, bytes)
      else none
    | _ => none

end Disk
end ApiScaffold
