import ApiScaffold.Client.Code
import ApiScaffold.Client.Literal
import ApiScaffold.Client.Route
import ApiScaffold.Client.Template
import ApiScaffold.Config
import ApiScaffold.Name.Pascal
import ApiScaffold.Name.Unique
import ApiScaffold.Spec.Basic

namespace ApiScaffold
namespace Client

/-- A value that a hook reads: a fixed text, or a member of its parameters. -/
inductive Value where
  | text (s : Text)
  | param (name : Text)
  deriving DecidableEq, Repr

def Value.code : Value → Text
  | text s => literal s
  | param name => member "params" name

/-- A piece of a request address. -/
inductive UrlPart where
  | text (s : Text)
  | param (name : Text)
  | query
  deriving DecidableEq, Repr

def UrlPart.part : UrlPart → Part
  | text s => .text s
  | param name => .expression ("encodeURIComponent(" ++ (Value.param name).code ++ ")")
  | query => .expression "query ? '?' + query : ''"

/-- A member of the parameters of a hook. -/
structure Field where
  name : Text
  type : Text
  required : Bool
  deriving DecidableEq, Repr

def Field.code (f : Field) : Text :=
  propertyKey f.name ++ (if f.required then "" else "?") ++ ": " ++ f.type ++ ";"

/-- What a hook module declares and does. A hook that reads is a query and has a key; `query`
lists the parameters that go into the query string. -/
structure Hook where
  method : Method
  name : Text
  paramsType : Text
  resultType : Text
  imports : List Text
  fields : List Field
  summary : Text
  key : List Value
  url : List UrlPart
  query : List Text
  body : Option Text
  returns : Bool
  deriving Repr

end Client

open Client

namespace Endpoint

/-- The parameters that a client passes: those of the path, then those of the query. -/
def clientParameters (f : Endpoint) : List Parameter :=
  f.pathParameters ++ f.queryParameters

/-- The member that carries the request body; it is numbered where a parameter has its name. -/
def bodyField (f : Endpoint) : Text :=
  Name.unique .exact (f.clientParameters.map (·.name)) "body"

def clientFields (policy : Name.Policy) (f : Endpoint) : List Field :=
  f.pathParameters.map (fun p => ⟨p.name, p.type.client, true⟩) ++
    f.queryParameters.map (fun p => ⟨p.name, p.type.client, false⟩) ++
    ((nonEmpty? f.requestBody).map fun body =>
      ⟨f.bodyField, (DataType.ofName policy body).client, true⟩).toList

/-- The function and the values of its parameters, in the order of their declaration. -/
def queryKey (f : Endpoint) : List Value :=
  .text f.name :: f.clientParameters.map fun p => .param p.name

/-- Every type that the module mentions. -/
def clientTypes (policy : Name.Policy) (f : Endpoint) : List DataType :=
  f.clientParameters.map (·.type) ++
    ([f.requestBody, f.responseBody].filterMap nonEmpty?).map (DataType.ofName policy)

/-- The interfaces to import. An entity whose name cleans up to nothing has none. -/
def typeImports (policy : Name.Policy) (f : Endpoint) : List Text :=
  DataType.addNames [] <|
    (((f.clientTypes policy).flatMap DataType.entities).map (Identifier.clean "")).filter (· != "")

/-- The address: placeholders that are declared as path parameters are filled in, all others
are kept as they stand. -/
def url (f : Endpoint) (withQuery : Bool) : List UrlPart :=
  (segments f.path).flatMap (fun s =>
    .text s.text ::
      match s.placeholder with
      | none => []
      | some name =>
        if f.pathParameters.any (·.name == name) then [.param name]
        else [.text ("\x7b" ++ name ++ "\x7d")]) ++
    (if withQuery then [.query] else [])

def resultType (policy : Name.Policy) (f : Endpoint) : Text :=
  match nonEmpty? f.responseBody with
  | some body => (DataType.ofName policy body).client
  | none => if f.method = .get then "null" else "void"

def hook (policy : Name.Policy) (f : Endpoint) : Hook :=
  { method := f.method
    name := Name.hook f.name
    paramsType := Name.pascal f.name ++ "Params"
    resultType := f.resultType policy
    imports := f.typeImports policy
    fields := f.clientFields policy
    summary := f.summary
    key := f.queryKey
    url := f.url !f.queryParameters.isEmpty
    query := f.queryParameters.map (·.name)
    body := (nonEmpty? f.requestBody).map fun _ => f.bodyField
    returns := (nonEmpty? f.responseBody).isSome }

end Endpoint

namespace Client.Hook

def isRead (h : Hook) : Bool :=
  h.method == .get

def libraryHook (h : Hook) : Text :=
  if h.isRead then "useQuery" else "useMutation"

/-- Without required members the parameters may be left out, without members there are none. -/
def signature (h : Hook) : Text :=
  if h.fields.isEmpty then ""
  else
    "params: " ++ h.paramsType ++ (if h.fields.any (·.required) then "" else " = \x7b\x7d")

def header (config : Config) (h : Hook) (c : Code) : Code :=
  let c := c.line
    ("import \x7b " ++ h.libraryHook ++ " \x7d from " ++ literal config.queryPackage ++ ";")
  let c :=
    if h.imports.isEmpty then c
    else
      c.line ("import type \x7b " ++ Text.joined ", " h.imports ++ " \x7d from " ++
        literal config.typesImport ++ ";")
  c.line ""

def interface (h : Hook) (c : Code) : Code :=
  if h.fields.isEmpty then c
  else
    ((((c.enter ("export interface " ++ h.paramsType ++ " \x7b")).lineAll
      (h.fields.map Field.code)).leave "\x7d").line "")

/-- The query string leaves out the parameters that have no value. -/
def queryString (h : Hook) (c : Code) : Code :=
  if h.query.isEmpty then c
  else
    let entries := objectLiteral (h.query.map fun name => (name, (Value.param name).code))
    (c.line ("const queryParamsObj = Object.fromEntries(Object.entries(" ++ entries ++
        ").filter(([, v]) => v !== undefined).map(([k, v]) => [k, String(v)]));")).line
      "const query = new URLSearchParams(queryParamsObj).toString();"

def fetch (h : Hook) (c : Code) : Code :=
  let url := template (h.url.map UrlPart.part)
  if h.isRead then c.line ("const response = await fetch(" ++ url ++ ");")
  else
    let c := c.enter ("const response = await fetch(" ++ url ++ ", \x7b")
    let c := c.line ("method: " ++ literal h.method.name ++ ",")
    let c :=
      match h.body with
      | none => c
      | some field =>
        (c.line "headers: \x7b 'Content-Type': 'application/json' \x7d,").line
          ("body: JSON.stringify(" ++ (Value.param field).code ++ "),")
    c.leave "\x7d);"

def failure (c : Code) : Code :=
  ((c.enter "if (!response.ok) \x7b").line
    ("throw Object.assign(new Error(" ++ literal "Network response was not ok" ++
      "), \x7b name: 'NetworkError' \x7d);")).leave "\x7d"

def result (h : Hook) (c : Code) : Code :=
  c.line
    (if h.returns then "return (await response.json()) as " ++ h.resultType ++ ";"
    else if h.isRead then "return null;"
    else "return undefined;")

def function (h : Hook) (c : Code) : Code :=
  let c := c.lineAll (docComment h.summary)
  let c := c.enter ("export function " ++ h.name ++ "(" ++ h.signature ++ ") \x7b")
  let c := c.enter ("return " ++ h.libraryHook ++ "<" ++ h.resultType ++ ">(\x7b")
  let c :=
    if h.isRead then
      (c.line ("queryKey: " ++ arrayLiteral (h.key.map Value.code) ++ ",")).enter
        "queryFn: async () => \x7b"
    else c.enter "mutationFn: async () => \x7b"
  let c := h.result (failure (h.fetch (h.queryString c)))
  ((c.leave "\x7d,").leave "\x7d);").leave "\x7d"

/-- The text of the module. -/
def text (config : Config) (h : Hook) : Text :=
  (h.function (h.interface (h.header config .empty))).text

end Client.Hook
end ApiScaffold
