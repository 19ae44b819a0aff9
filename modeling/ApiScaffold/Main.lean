import ApiScaffold.Command.Run

namespace ApiScaffold.Command

/-- What a failed call of the system says about a path; other failures end the program. -/
def faultOf (e : IO.Error) : IO Disk.Fault :=
  match e with
  | .noFileOrDirectory .. => pure .missing
  | .alreadyExists .. => pure .occupied
  | .inappropriateType _ code _ => pure (if code = 21 then .isDirectory else .notDirectory)
  | .invalidArgument _ code _ => pure (if code = 22 then .nul else .nameTooLong)
  | e => throw e

/-- Calls the system on a path that is made of characters. -/
def attempt {α : Type} (p : Path) (action : String → IO α) : IO (Except Disk.Fault α) := do
  match Text.string? p.text with
  | none => pure (.error .unencodable)
  | some name =>
    match ← (action name).toBaseIO with
    | .ok a => pure (.ok a)
    | .error e => pure (.error (← faultOf e))

def look (p : Path) : IO Disk.Status := do
  match ← attempt p fun name => IO.FS.readBinFile name with
  | .ok bytes => pure (.file bytes.toList)
  | .error .isDirectory => pure .directory
  | .error .nameTooLong => pure .nameTooLong
  | .error _ => pure .missing

/-- A directory that is there already will do. -/
def makeDirectory (p : Path) : IO (Option Disk.Fault) := do
  match ← attempt p fun name => IO.FS.createDir name with
  | .ok _ => pure none
  | .error f => pure (if (← look p) = .directory then none else some f)

partial def makeDirectories (p : Path) : IO (Option Disk.Fault) := do
  match ← makeDirectory p with
  | some .missing =>
    if p.parts = [] then pure (some .missing)
    else
      match ← makeDirectories p.parent with
      | none => makeDirectory p
      | fault => pure fault
  | fault => pure fault

/-- Writes a text into a file. One that is not made of characters leaves an empty file. -/
def write (p : Path) (t : Text) : IO (Option Disk.Fault) := do
  match ← makeDirectories p.parent with
  | none =>
    match ← attempt p fun name => IO.FS.writeFile name ((Text.string? t).getD "") with
    | .ok _ => pure (if (Text.string? t).isNone then some .unencodable else none)
    | .error f => pure (some f)
  | fault => pure fault

def writeAll (root : Path) : List Artifact → IO WriteReport
  | [] => pure .empty
  | a :: rest => do
    let fault ← write (a.target root) a.text
    if fault.any Disk.Fault.isFinal then pure { WriteReport.empty with stopped := fault }
    else
      let report ← writeAll root rest
      pure (report.add a (a.target root) fault)

def perform (r : Request) : IO Outcome := do
  match r with
  | .help page => pure ⟨some 0, page, "", none⟩
  | .refused text => pure ⟨some 2, "", text, none⟩
  | .nul => pure (Lines.fail (.stopped .nul) ⟨[], []⟩)
  | .run verb o =>
    let document ← look o.document
    let config ← (o.config.mapM look : IO (Option Disk.Status))
    let status (p : Path) := if some p = o.config then config.getD .missing else document
    match verb with
    | .inspect => pure (inspect o status)
    | .generate =>
      match plan o status with
      | (lines, .error f) => pure (lines.fail f)
      | (lines, .ok (root, artifacts)) =>
        let report ← writeAll root artifacts
        pure (conclude o root artifacts.length lines report)

/-- What comes of a run that never ends. -/
partial def stay : IO Unit := do
  IO.sleep 1000
  stay

end ApiScaffold.Command

open ApiScaffold.Command in
def main (args : List String) : IO UInt32 := do
  let outcome ← perform (Request.ofArguments (← IO.getEnv "SPECSTACK_OUTPUT") args)
  IO.print outcome.stdout
  IO.eprint outcome.stderr
  if outcome.code.isNone then
    (← IO.getStdout).flush
    stay
  match outcome.failure with
  | some f => if f.isForeseen then pure () else IO.eprintln (ApiScaffold.Text.escaped f.message)
  | none => pure ()
  pure outcome.exit.toUInt32
