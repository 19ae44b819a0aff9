import ApiScaffold.Command.Switch
import ApiScaffold.Text.Quoted

namespace ApiScaffold.Command

def program : String :=
  "specstack"

inductive Verb where
  | generate
  | inspect
  deriving DecidableEq, Repr

namespace Verb

def all : List Verb :=
  [generate, inspect]

def name : Verb → String
  | generate => "generate"
  | inspect => "inspect"

def purpose : Verb → String
  | generate => "Generate DDL, SQL functions, client types and hooks from DOC_PATH."
  | inspect => "Print the intermediate representation of DOC_PATH as JSON."

def ofName? (s : String) : Option Verb :=
  all.find? (·.name == s)

end Verb

namespace Switch

def output : Switch :=
  ⟨.output, some 'o', "--output", some "PATH", "Output root directory (default: ./generated)."⟩

def config : Switch :=
  ⟨.config, none, "--config", some "PATH", "YAML file with generator settings."⟩

def verbose : Switch :=
  ⟨.verbose, some 'v', "--verbose", none, "Log parser diagnostics."⟩

def help : Switch :=
  ⟨.help, none, "--help", none, "Show this message and exit."⟩

/-- The switch as the help shows it. -/
def spelled (s : Switch) : String :=
  (match s.short with
    | some c => shortName c ++ ", "
    | none => "") ++ s.long ++
  (match s.placeholder with
    | some text => " " ++ text
    | none => "")

end Switch

def Verb.switches : Verb → List Switch
  | generate => [.output, .config, .verbose, .help]
  | inspect => [.verbose, .help]

/-- The name of the argument that every command takes. -/
def documentArgument : String :=
  "DOC_PATH"

/-- How a command is called, or the program if there is none. -/
def usage : Option Verb → String
  | none => "Usage: " ++ program ++ " [OPTIONS] COMMAND [ARGS]...\n"
  | some v => "Usage: " ++ program ++ " " ++ v.name ++ " [OPTIONS] " ++ documentArgument ++ "\n"

/-- Two columns, the second one behind the longest text of the first. -/
def columns (rows : List (String × String)) : String :=
  let width := rows.foldl (fun w row => max w row.1.length) 0
  String.join (rows.map fun row =>
    "  " ++ row.1 ++ String.ofList (List.replicate (width - row.1.length) ' ') ++ "  " ++ row.2 ++
      "\n")

def options (switches : List Switch) : String :=
  "\nOptions:\n" ++ columns (switches.map fun s => (s.spelled, s.purpose))

/-- The help for a command, or for the program. -/
def page : Option Verb → String
  | none =>
    usage none ++ "\n  " ++ program ++
      ": generate SQL schemas and React Query hooks from OpenAPI documents.\n" ++
      options [.help] ++ "\nCommands:\n" ++ columns (Verb.all.map fun v => (v.name, v.purpose))
  | some v => usage (some v) ++ "\n  " ++ v.purpose ++ "\n" ++ options v.switches

/-- What was perhaps meant. -/
def suggestion : List String → String
  | [] => ""
  | [name] => " Did you mean " ++ Text.quoted name ++ "?"
  | names =>
    let quoted := names.map fun (name : String) => Text.quoted name
    " (Did you mean one of: " ++ String.intercalate ", " quoted ++ "?)"

namespace UsageFault

def message : UsageFault → String
  | unknownSwitch name near => "No such option " ++ Text.quoted name ++ "." ++ suggestion near
  | valueMissing name => "Option " ++ Text.quoted name ++ " requires an argument."
  | valueRefused name => "Option " ++ Text.quoted name ++ " does not take a value."
  | commandMissing => "Missing command."
  | unknownCommand name near => "No such command " ++ Text.quoted name ++ "." ++ suggestion near
  | argumentMissing name => "Missing argument " ++ Text.quoted name ++ "."
  | argumentsLeft texts =>
    "Got unexpected extra argument" ++ (if texts.length = 1 then "" else "s") ++
      " (" ++ String.intercalate " " texts ++ ")"

/-- A fault in the value of a switch is told alone, any other below the usage. -/
def text (verb : Option Verb) (f : UsageFault) : String :=
  let error := "Error: " ++ f.message ++ "\n"
  match f with
  | valueMissing _ | valueRefused _ => error
  | _ =>
    usage verb ++ "Try '" ++ program ++
      (match verb with
        | some v => " " ++ v.name
        | none => "") ++ " --help' for help.\n\n" ++ error

end UsageFault
end ApiScaffold.Command
