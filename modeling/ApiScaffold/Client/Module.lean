import ApiScaffold.Client.Code
import ApiScaffold.Client.Literal
import ApiScaffold.Spec.Basic

namespace ApiScaffold.Client

/-- A module without declarations. -/
def emptyModule : Text :=
  "export \x7b\x7d;"

/-- The interface of a table, where a nullable column is an optional member. -/
def interfaceText (t : Table) : Text :=
  (((Code.empty.enter ("export interface " ++ Identifier.ofTable t.name ++ " \x7b")).lineAll
    (t.columns.map fun c =>
      propertyKey c.name ++ (if c.nullable then "?" else "") ++ ": " ++ c.type.client ++
        ";")).leave "\x7d").text

def typesModule (tables : List Table) : Text :=
  if tables.isEmpty then emptyModule
  else Text.joined "\n\n" (tables.map interfaceText)

/-- Exports every hook module again. -/
def indexModule (hooks : List Text) : Text :=
  if hooks.isEmpty then emptyModule
  else
    Text.joined "\n"
      (hooks.map fun name => "export * from " ++ literal ("./" ++ name) ++ ";")

end ApiScaffold.Client
