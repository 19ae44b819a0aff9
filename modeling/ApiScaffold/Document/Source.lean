import ApiScaffold.Disk
import ApiScaffold.Text.Lines
import ApiScaffold.Text.Utf8
import ApiScaffold.Yaml.Value

namespace ApiScaffold.Document

/-- Why a file holds no document. -/
inductive ReadFault where
  | missing
  | notRegular
  | nameTooLong
  | encoding (f : Text.Utf8.Fault)
  | format (f : Yaml.Fault)
  deriving DecidableEq, Repr

/-- How messages name a text that has no path. -/
def unnamed : String :=
  "<string>"

/-- What was to be read is a path or the name of a text. -/
def ReadFault.message (source : Text) : ReadFault → Text
  | missing => "Cannot read " ++ source ++ ": OpenAPI file not found"
  | notRegular => "Cannot read " ++ source ++ ": not a regular file"
  | nameTooLong => "[Errno 36] File name too long: " ++ Text.quoted source
  | encoding f => "Cannot read " ++ source ++ ": " ++ f.message
  | format (.value f) => f.message
  | format _ => "Failed to parse OpenAPI file: " ++ source

/-- The tree that a text spells. Only `true` and `false` are truth values, so that words such as
`on` can be names. -/
def load (text : Text) : Except ReadFault Tree :=
  (Yaml.load .plain text).mapError .format

/-- The tree of a description. A tree that is a text is read once more. -/
def contents : Tree → Except ReadFault Tree
  | .str text => load text
  | t => .ok t

/-- The tree that a file holds. All line breaks are read as line feeds. -/
def read : Disk.Status → Except ReadFault Tree
  | .missing => .error .missing
  | .nameTooLong => .error .nameTooLong
  | .directory => .error .notRegular
  | .file bytes => do
    let text ← (Text.Utf8.decode bytes).mapError .encoding
    load (Text.ofChars (Text.unixBreaks text))

end ApiScaffold.Document
