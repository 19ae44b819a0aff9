import ApiScaffold.Artifact
import ApiScaffold.Disk

namespace ApiScaffold

/-- What became of artifacts that were to be written: the files that were, and the artifacts
that were not, by their relative paths. `stopped` is what ended the writing early: something that
no disk can hold. -/
structure WriteReport where
  written : List Path
  failed : List (Text × Path × Disk.Fault)
  stopped : Option Disk.Fault
  deriving DecidableEq, Repr

namespace WriteReport

def empty : WriteReport :=
  ⟨[], [], none⟩

def isOk (r : WriteReport) : Bool :=
  r.failed.isEmpty && r.stopped.isNone

/-- Puts what became of one artifact in front. -/
def add (a : Artifact) (target : Path) (fault : Option Disk.Fault) (r : WriteReport) :
    WriteReport :=
  match fault with
  | none => { r with written := target :: r.written }
  | some f => { r with failed := (a.path, target, f) :: r.failed }

def failureText (target : Path) (f : Disk.Fault) : Text :=
  "Failed to write " ++ target.text ++ ": " ++ f.message

end WriteReport

namespace Artifact

def target (root : Path) (a : Artifact) : Path :=
  root.join (.ofText a.path)

/-- Writes artifacts below a root. A failure does not stop the others, but what no disk can hold
does. -/
def writeAll (root : Path) : List Artifact → Disk → Disk × WriteReport
  | [], d => (d, .empty)
  | a :: rest, d =>
    let (d, fault) := d.writeText (a.target root) a.text
    if fault.any Disk.Fault.isFinal then (d, { WriteReport.empty with stopped := fault })
    else
      let (d, report) := writeAll root rest d
      (d, report.add a (a.target root) fault)

end Artifact
end ApiScaffold
