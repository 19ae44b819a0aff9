import ApiScaffold.Config
import ApiScaffold.Disk
import ApiScaffold.Text.Lines
import ApiScaffold.Text.Utf8
import ApiScaffold.Yaml.Value

namespace ApiScaffold.Config

/-- Why a file holds no settings. -/
inductive ReadFault where
  | missing
  | nameTooLong
  | encoding (f : Text.Utf8.Fault)
  | format (f : Yaml.Fault)
  | notMapping
  | invalid (issues : List Issue)
  deriving DecidableEq, Repr

def ReadFault.message (source : Text) : ReadFault → Text
  | missing => "Cannot read " ++ source ++ ": config file not found"
  | nameTooLong => "[Errno 36] File name too long: " ++ Text.quoted source
  | encoding f => f.message
  | format (.value f) => f.message
  | format _ => "Failed to parse config file " ++ source
  | notMapping => "Config file " ++ source ++ " must contain a mapping"
  | invalid _ => "Invalid config file " ++ source

/-- Settings from a tree; nothing at all leaves every setting as it is. -/
def ofTree (t : Tree) : Except ReadFault Config :=
  if t.isNull then .ok .standard
  else
    match t.map? with
    | none => .error .notMapping
    | some entries =>
      match check entries with
      | .valid config => .ok config
      | .invalid issues => .error (.invalid issues)

/-- The settings that a file holds. -/
def read : Disk.Status → Except ReadFault Config
  | .missing | .directory => .error .missing
  | .nameTooLong => .error .nameTooLong
  | .file bytes => do
    let text ← (Text.Utf8.decode bytes).mapError .encoding
    let tree ← (Yaml.load .wide (Text.ofChars (Text.unixBreaks text))).mapError .format
    ofTree tree

end ApiScaffold.Config
