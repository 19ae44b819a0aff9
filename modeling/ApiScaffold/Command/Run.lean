import ApiScaffold.Artifact.Report
import ApiScaffold.Command.Request
import ApiScaffold.Config.Source
import ApiScaffold.Document.Format
import ApiScaffold.Document.Operation
import ApiScaffold.Document.Source
import ApiScaffold.Json.Printer
import ApiScaffold.Spec.Dump

namespace ApiScaffold.Command

/-- Why a command failed. -/
inductive Failure where
  | config (path : Path) (f : Config.ReadFault)
  | document (source : Text) (f : Document.ReadFault)
  | description (f : Document.Fault)
  | unwritten (failed total : Nat)
  | stopped (f : Disk.Fault)
  | unshown
  deriving DecidableEq, Repr

namespace Failure

def message : Failure → Text
  | config path f => f.message path.text
  | document source f => f.message source
  | description f => f.message
  | unwritten failed total =>
    toString failed ++ " of " ++ toString total ++ " files could not be written"
  | stopped f => f.message
  | unshown => "the specification cannot be shown"

/-- Whether the command foresees the failure and tells it. Any other one ends the program as it
stands. -/
def isForeseen : Failure → Bool
  | config _ (.nameTooLong) | config _ (.encoding _) | config _ (.format (.value _)) => false
  | document _ (.nameTooLong) | document _ (.format (.value _)) => false
  | description .numberTooLong | description .endless | description .looping => false
  | stopped _ | unshown => false
  | _ => true

/-- The exit code of a failure; none if it is one to never end. -/
def code? : Failure → Option Nat
  | description .looping => none
  | _ => some 1

end Failure

/-- What a command leaves: its exit code, what it wrote, and why it failed if it did. A run that
never ends has no exit code. -/
structure Outcome where
  code : Option Nat
  stdout : String
  stderr : String
  failure : Option Failure
  deriving DecidableEq, Repr

/-- The exit code as a number, for a run that ends. -/
def Outcome.exit (o : Outcome) : Nat :=
  o.code.getD 0

/-- Lines for both outputs. Only what is told as an error may hold what is no character. -/
structure Lines where
  stdout : List Text
  stderr : List Text
  deriving DecidableEq, Repr

namespace Lines

def text (lines : List Text) : String :=
  String.join (lines.map fun line => Text.escaped line ++ "\n")

def append (a b : Lines) : Lines :=
  ⟨a.stdout ++ b.stdout, a.stderr ++ b.stderr⟩

def say (lines : List Text) : Lines :=
  ⟨lines, []⟩

def succeed (l : Lines) : Outcome :=
  ⟨some 0, text l.stdout, text l.stderr, none⟩

def fail (f : Failure) (l : Lines) : Outcome :=
  let error : List Text := if f.isForeseen then ["Error: " ++ f.message] else []
  ⟨f.code?, text l.stdout, text (l.stderr ++ error), some f⟩

end Lines

/-- Diagnostics are told only if they are asked for. -/
def noteLines (verbose : Bool) (notes : List Document.Note) : List Text :=
  if verbose then notes.map fun n => "DEBUG specstack.parser.openapi: " ++ n.message else []

/-- The specification of a tree that was read, and the diagnostics on the way to it. -/
def specOf (o : Options) (tree : Tree) : Lines × Except Failure Spec :=
  match Document.contents tree with
  | .error f => (⟨[], []⟩, .error (.document Document.unnamed f))
  | .ok root =>
    let traced := Document.spec .standard root
    (⟨[], noteLines o.verbose traced.notes⟩, traced.result.mapError .description)

/-- What is to be generated and where, or why nothing is; and what is told before it is written.
`look` tells what stands at a path. -/
def plan (o : Options) (look : Path → Disk.Status) :
    Lines × Except Failure (Path × List Artifact) :=
  let config : Except Failure Config :=
    match o.config with
    | none => .ok .standard
    | some path => (Config.read (look path)).mapError (Failure.config path)
  match config with
  | .error f => (⟨[], []⟩, .error f)
  | .ok config =>
    let parsing := Lines.say ["Parsing " ++ o.document.text ++ "..."]
    match Document.read (look o.document) with
    | .error f => (parsing, .error (.document o.document.text f))
    | .ok tree =>
      let format :=
        Lines.say (if Document.Format.of tree = Document.Format.unknown then
          ["  No 'openapi' or 'swagger' version key found; parsing as OpenAPI 3."] else [])
      let (notes, result) := specOf o tree
      let lines := (parsing.append format).append notes
      match result with
      | .error f => (lines, .error f)
      | .ok spec =>
        (lines.append (.say
          ["Found " ++ toString spec.tables.length ++ " tables and " ++
            toString spec.functions.length ++ " functions.",
            "Generating DB schema, functions, types and hooks..."]),
          .ok (o.output.getD config.outputDir, spec.artifacts config .standard))

/-- Tells lines up to the first that has no bytes, if there is one. -/
def Lines.sayAll (l : Lines) (lines : List Text) : Lines × Option Failure :=
  let told := lines.takeWhile fun line => (Text.chars? line).isSome
  (l.append (.say told),
    if told.length < lines.length then some (.stopped .unencodable) else none)

/-- What is told about writing `total` artifacts below a root, after the lines so far. -/
def conclude (o : Options) (root : Path) (total : Nat) (lines : Lines) (r : WriteReport) :
    Outcome :=
  let log : List Text :=
    if o.verbose then
      r.written.map fun p => "DEBUG specstack.generator.writer: Wrote " ++ p.text
    else []
  let lines := lines.append ⟨[], log⟩
  match r.stopped with
  | some f => lines.fail (.stopped f)
  | none =>
    let created : List Text := r.written.map fun p => "  Created " ++ p.text
    let done : Text := "Done! Generated " ++ toString total ++ " files in " ++ root.text
    match lines.sayAll (if r.failed.isEmpty then created ++ [done] else created) with
    | (lines, some f) => lines.fail f
    | (lines, none) =>
      if r.failed.isEmpty then lines.succeed
      else
        let failed : List Text := r.failed.map fun (path, target, f) =>
          "  " ++ path ++ ": " ++ WriteReport.failureText target f
        (lines.append ⟨[], failed⟩).fail (.unwritten r.failed.length total)

def generate (o : Options) (d : Disk) : Outcome × Disk :=
  match plan o d.look with
  | (lines, .error f) => (lines.fail f, d)
  | (lines, .ok (root, artifacts)) =>
    let (written, report) := Artifact.writeAll root artifacts d
    (conclude o root artifacts.length lines report, written)

/-- The text that shows a specification; none if a type is too deep in it or a text has no
bytes. -/
def shown? (s : Spec) : Option Text := do
  let text := Json.indented (← s.dump?)
  if (Text.chars? text).isSome then some text else none

/-- Shows the specification of a document. -/
def inspect (o : Options) (look : Path → Disk.Status) : Outcome :=
  match Document.read (look o.document) with
  | .error f => Lines.fail (.document o.document.text f) ⟨[], []⟩
  | .ok tree =>
    match specOf o tree with
    | (lines, .error f) => lines.fail f
    | (lines, .ok spec) =>
      match shown? spec with
      | some text => (lines.append (.say [text])).succeed
      | none => lines.fail .unshown

/-- Runs the program. `output` is where the surroundings want the output. -/
def run (output : Option String) (args : List String) (d : Disk) : Outcome × Disk :=
  match Request.ofArguments output args with
  | .help page => (⟨some 0, page, "", none⟩, d)
  | .refused text => (⟨some 2, "", text, none⟩, d)
  | .nul => (Lines.fail (.stopped .nul) ⟨[], []⟩, d)
  | .run .inspect o => (inspect o d.look, d)
  | .run .generate o => generate o d

end ApiScaffold.Command
