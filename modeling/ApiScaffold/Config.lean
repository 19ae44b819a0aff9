import ApiScaffold.Checked
import ApiScaffold.Disk.Path
import ApiScaffold.Tree.Shown

namespace ApiScaffold

/-- Where artifacts go and what the client code imports. -/
structure Config where
  outputDir : Path
  dbDir : Text
  hooksDir : Text
  typesFile : Text
  typesImport : Text
  queryPackage : Text
  deriving DecidableEq, Repr

namespace Config
open Checked

def standard : Config :=
  { outputDir := .ofText "generated"
    dbDir := "db"
    hooksDir := "frontend/src/hooks"
    typesFile := "frontend/src/types.ts"
    typesImport := "../types"
    queryPackage := "@tanstack/react-query" }

def fieldNames : List Text :=
  ["output_dir", "db_dir", "hooks_dir", "types_file", "types_import", "query_package"]

def path : Tree → Checked Path
  | .str s => .valid (.ofText s)
  | _ => issue .notPath

/-- A key as a step: whole numbers and truth values are indexes. -/
def keyStep : Tree → Step
  | .str s => .field s
  | .bool b => .index (if b then 1 else 0)
  | .int n =>
    if isWord64 n then .index n
    else if (Tree.int n).isWritable then .field (toString n)
    else .field "<unprintable int object>"
  | key => .field key.shown

/-- Settings that are not known are refused, each at its key, and so are keys that are no texts. -/
def refuseOthers : Tree.Entries → Checked Unit
  | [] => .valid ()
  | (key, _) :: rest =>
    let here : Checked Unit :=
      match key with
      | .str name => if name ∈ fieldNames then .valid () else issue .unexpected
      | _ => issue .keyNotText
    (fun _ _ => ()) <$> here.under (keyStep key) <*> refuseOthers rest

def checkSettings (entries : Tree.Entries) : Checked Config :=
  (fun outputDir dbDir hooksDir typesFile typesImport queryPackage _ =>
      { outputDir, dbDir, hooksDir, typesFile, typesImport, queryPackage }) <$>
    field entries "output_dir" (some standard.outputDir) path <*>
    field entries "db_dir" (some standard.dbDir) Checked.text <*>
    field entries "hooks_dir" (some standard.hooksDir) Checked.text <*>
    field entries "types_file" (some standard.typesFile) Checked.text <*>
    field entries "types_import" (some standard.typesImport) Checked.text <*>
    field entries "query_package" (some standard.queryPackage) Checked.text <*>
    refuseOthers entries

/-- Whether a key is a text that has no bytes. -/
def isUnencodable : Tree → Bool
  | .str s => (Text.chars? s).isNone
  | _ => false

/-- Settings under a key that has no bytes are not looked at, whatever else is wrong with them. -/
def check (entries : Tree.Entries) : Checked Config :=
  if entries.any fun e => isUnencodable e.1 then issue .notEncoded else checkSettings entries

end Config
end ApiScaffold
