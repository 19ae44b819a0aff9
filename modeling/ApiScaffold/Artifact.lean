import ApiScaffold.Client.Hook
import ApiScaffold.Client.Module
import ApiScaffold.Sql.Schema

namespace ApiScaffold

/-- A generated file: its path below the output directory and its text. -/
structure Artifact where
  path : Text
  text : Text
  deriving DecidableEq, Repr

namespace Artifact

/-- A path that was given before keeps its place and takes the new text. -/
def put (a : Artifact) : List Artifact → List Artifact
  | [] => [a]
  | b :: rest => if b.path = a.path then a :: rest else b :: put a rest

def ofTable (config : Config) (t : Table) : Artifact :=
  ⟨config.dbDir ++ "/" ++ Identifier.ofTable t.name ++ "_table.sql", t.sql ++ "\n"⟩

def ofFunction (config : Config) (policy : Name.Policy) (f : Endpoint) : Artifact :=
  ⟨config.dbDir ++ "/" ++ Identifier.ofFunction f.name ++ "_function.sql", f.sql policy ++ "\n"⟩

def ofTypes (config : Config) (s : Spec) : Artifact :=
  ⟨config.typesFile, Client.typesModule s.tables ++ "\n"⟩

def ofHook (config : Config) (policy : Name.Policy) (f : Endpoint) : Artifact :=
  ⟨config.hooksDir ++ "/" ++ Name.hook f.name ++ ".ts", (f.hook policy).text config ++ "\n"⟩

def ofIndex (config : Config) (s : Spec) : Artifact :=
  ⟨config.hooksDir ++ "/index.ts",
    Client.indexModule (s.functions.map fun f => Name.hook f.name) ++ "\n"⟩

end Artifact

/-- Everything that is generated, one artifact after the other. -/
def Spec.rendered (config : Config) (policy : Name.Policy) (s : Spec) : List Artifact :=
  s.tables.map (.ofTable config) ++ s.functions.map (.ofFunction config policy) ++
    .ofTypes config s :: s.functions.map (.ofHook config policy) ++ [.ofIndex config s]

/-- The generated files. -/
def Spec.artifacts (config : Config) (policy : Name.Policy) (s : Spec) : List Artifact :=
  (s.rendered config policy).foldl (fun files a => a.put files) []

end ApiScaffold
