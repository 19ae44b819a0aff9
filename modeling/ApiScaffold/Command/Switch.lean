import ApiScaffold.Text.Similarity

namespace ApiScaffold.Command

/-- What an argument can set. -/
inductive Setting where
  | output
  | config
  | verbose
  | help
  deriving DecidableEq, Repr

/-- How a setting is spelled, what stands for its value, if it takes one, and what it is for. -/
structure Switch where
  setting : Setting
  short : Option Char
  long : String
  placeholder : Option String
  purpose : String
  deriving DecidableEq, Repr

/-- Why arguments make no command. -/
inductive UsageFault where
  | unknownSwitch (name : String) (near : List String)
  | valueMissing (name : String)
  | valueRefused (name : String)
  | commandMissing
  | unknownCommand (name : String) (near : List String)
  | argumentMissing (name : String)
  | argumentsLeft (texts : List String)
  deriving DecidableEq, Repr

/-- The names that are close to a name, in their order. -/
def closeNames (name : String) (names : List String) : List String :=
  (names.filter (Text.isClose · name)).mergeSort fun a b => a < b || a == b

/-- The values given to settings, and the other arguments. -/
structure Reading where
  settings : List (Setting × String)
  texts : List String
  deriving DecidableEq, Repr

namespace Reading

def has (s : Setting) (r : Reading) : Bool :=
  r.settings.any (·.1 == s)

/-- Of several values the last one counts. -/
def get? (s : Setting) (r : Reading) : Option String :=
  (r.settings.reverse.find? (·.1 == s)).map (·.2)

end Reading

/-- What one argument sets, and the switch that still needs a value, as it was spelled. -/
structure Word where
  settings : List (Setting × String)
  open? : Option (Setting × String)
  deriving DecidableEq, Repr

namespace Switch

def shortName (c : Char) : String :=
  String.ofList ['-', c]

/-- Switches of one letter behind one hyphen. The first that takes a value has the rest of the
word for it. -/
def readLetters (known : List Switch) : List Char → Except UsageFault Word
  | [] => .ok ⟨[], none⟩
  | c :: rest =>
    match known.find? (·.short == some c) with
    | none => .error (.unknownSwitch (shortName c) [])
    | some s =>
      if s.placeholder.isNone then do
        let word ← readLetters known rest
        .ok { word with settings := (s.setting, "") :: word.settings }
      else if rest = [] then .ok ⟨[], some (s.setting, shortName c)⟩
      else .ok ⟨[(s.setting, String.ofList rest)], none⟩

/-- An argument that begins with a hyphen. A long name may have its value behind an equals
sign. -/
def readWord (known : List Switch) (text : String) : Except UsageFault Word :=
  let name := String.ofList (text.toList.takeWhile (· != '='))
  let value? :=
    match text.toList.dropWhile (· != '=') with
    | [] => none
    | _ :: value => some (String.ofList value)
  match known.find? (·.long == name) with
  | some s =>
    match s.placeholder, value? with
    | some _, some value => .ok ⟨[(s.setting, value)], none⟩
    | some _, none => .ok ⟨[], some (s.setting, name)⟩
    | none, some _ => .error (.valueRefused name)
    | none, none => .ok ⟨[(s.setting, "")], none⟩
  | none =>
    if text.startsWith "--" then
      .error (.unknownSwitch name (closeNames name (known.map (·.long))))
    else readLetters known (text.toList.drop 1)

/-- A hyphen alone is no switch. -/
def isWord (text : String) : Bool :=
  text.startsWith "-" && text != "-"

/-- Reads arguments up to two hyphens, behind which there are no switches. Unless switches and
other arguments are mixed, the first argument that is no switch ends them too. -/
def readAll (known : List Switch) (mixed : Bool) : List String → Except UsageFault Reading
  | [] => .ok ⟨[], []⟩
  | text :: rest =>
    if text = "--" then .ok ⟨[], rest⟩
    else if isWord text then do
      let word ← readWord known text
      match word.open?, rest with
      | none, rest => do
        let r ← readAll known mixed rest
        .ok { r with settings := word.settings ++ r.settings }
      | some (_, name), [] => .error (.valueMissing name)
      | some (setting, _), value :: rest => do
        let r ← readAll known mixed rest
        .ok { r with settings := word.settings ++ (setting, value) :: r.settings }
    else if mixed then do
      let r ← readAll known mixed rest
      .ok { r with texts := text :: r.texts }
    else .ok ⟨[], text :: rest⟩

end Switch
end ApiScaffold.Command
