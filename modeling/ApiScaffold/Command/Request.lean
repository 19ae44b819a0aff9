import ApiScaffold.Command.Usage
import ApiScaffold.Disk.Path

namespace ApiScaffold.Command

structure Options where
  document : Path
  output : Option Path
  config : Option Path
  verbose : Bool
  deriving DecidableEq, Repr

/-- What the arguments ask for: a page of help, an answer to arguments that make no command, or
a command. A path with a NUL in it ends the program before there is a command. -/
inductive Request where
  | help (page : String)
  | refused (text : String)
  | nul
  | run (verb : Verb) (options : Options)
  deriving DecidableEq, Repr

namespace Request

def refuse (verb : Option Verb) (f : UsageFault) : Request :=
  .refused (f.text verb)

/-- Whether a path among the arguments holds a NUL; texts that are left over are no paths. -/
def hasNul (r : Reading) : Bool :=
  ((r.get? .output).toList ++ (r.get? .config).toList ++ r.texts.take 1).any fun path =>
    '\x00' ∈ path.toList

/-- The request for a command. `output` is where the surroundings want the output, which an
argument overrides; an empty text is no wish. -/
def ofVerb (output : Option String) (verb : Verb) (args : List String) : Request :=
  match Switch.readAll verb.switches true args with
  | .error f => refuse (some verb) f
  | .ok r =>
    if r.has .help then .help (page (some verb))
    else if hasNul r then .nul
    else
      match r.texts with
      | [] => refuse (some verb) (.argumentMissing documentArgument)
      | [document] =>
        .run verb
          { document := .ofText document
            output := ((r.get? .output).or (output.filter (· != ""))).map fun path => .ofText path
            config := (r.get? .config).map fun path => .ofText path
            verbose := r.has .verbose }
      | _ :: rest => refuse (some verb) (.argumentsLeft rest)

/-- A name that no command has is read once more as a switch, if it looks like one. -/
def ofUnknown (name : String) (rest : List String) : Request :=
  let again := if name.startsWith "-" then name :: rest else []
  match Switch.readAll [.help] false again with
  | .error f => refuse none f
  | .ok r =>
    if r.has .help then .help (page none)
    else refuse none (.unknownCommand name (closeNames name (Verb.all.map (·.name))))

def ofArguments (output : Option String) : List String → Request
  | [] => .refused (page none)
  | args =>
    match Switch.readAll [.help] false args with
    | .error f => refuse none f
    | .ok r =>
      if r.has .help then .help (page none)
      else
        match r.texts with
        | [] => refuse none .commandMissing
        | name :: rest =>
          match Verb.ofName? name with
          | some verb => ofVerb output verb rest
          | none => ofUnknown name rest

end Request
end ApiScaffold.Command
