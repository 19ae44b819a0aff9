import ApiScaffold.Name.Unique
import ApiScaffold.Spec.Basic
import ApiScaffold.Sql.Statement

namespace ApiScaffold

/-- Cleans names; one that cleans up to nothing is named by its place. -/
def cleanAll (fallback : Text) (names : List Text) : List Text :=
  names.mapIdx fun i name => Identifier.clean (fallback ++ toString i) name

/-- Column names are told apart without regard to case, as the database does. -/
def Table.columnNames (t : Table) : List Text :=
  Name.claimAll .folded [] (cleanAll "column" (t.columns.map (·.name)))

def Table.definition (t : Table) : Sql.TableDefinition :=
  let columns := t.columns.zip t.columnNames
  { name := Identifier.ofTable t.name
    columns := columns.map fun (c, name) => ⟨name, c.type.sql, !c.nullable⟩
    primaryKey := (columns.filter (·.1.primaryKey)).map (·.2) }

def Table.sql (t : Table) : Text :=
  t.definition.text

namespace Endpoint

/-- An argument for every parameter, marked by an underscore. -/
def argumentNames (f : Endpoint) : List Text :=
  Name.claimAll .folded [] ((cleanAll "param" (f.parameters.map (·.name))).map ("_" ++ ·))

/-- The response decides the table that is read, the request the one that is changed. A body type
of no characters names no table. -/
def tableName (f : Endpoint) : Text :=
  let body := if f.method = .get then f.responseBody else f.requestBody
  Identifier.clean (Identifier.ofFunction f.name) (body.getD "")

/-- Each path parameter picks out rows by the column of its name. -/
def pathFilter (f : Endpoint) : List Sql.Predicate :=
  let columns := cleanAll "param" (f.parameters.map (·.name))
  ((f.parameters.zip (columns.zip f.argumentNames)).filter (·.1.location == .path)).map
    fun (_, column, argument) => ⟨column, argument⟩

def bodyPlaceholder (f : Endpoint) : Sql.Statement :=
  .comment <|
    match nonEmpty? f.requestBody with
    | some body =>
      "PLACEHOLDER: map the fields of request body " ++ body ++ " onto the columns of " ++
        f.tableName ++ "."
    | none =>
      "PLACEHOLDER: " ++ f.name ++
        " declares no request body; map its inputs onto the columns of " ++ f.tableName ++ "."

def updateTarget (f : Endpoint) : Sql.Statement :=
  .comment <|
    if f.pathFilter.isEmpty then
      "WARNING: " ++ f.name ++
        " has no path parameter identifying the row to update; no filter generated."
    else "Target rows: WHERE " ++ Sql.conjunction f.pathFilter

/-- What the function does, by its method. What cannot be made a statement is explained in a
comment. -/
def statements (f : Endpoint) : List Sql.Statement :=
  let returning := f.responseBody.isSome
  match f.method with
  | .head | .options | .trace =>
    [.comment ("HTTP method " ++ f.method.name ++ " is not supported for SQL generation.")]
  | .get =>
    f.queryParameters.map (fun p =>
      .comment ("Query parameter '" ++ p.name ++ "' is accepted but not applied as a filter.")) ++
      [.select f.tableName f.pathFilter]
  | .post => [f.bodyPlaceholder, .insert f.tableName returning]
  | .put | .patch => [f.bodyPlaceholder, f.updateTarget]
  | .delete => [.delete f.tableName f.pathFilter returning]

/-- A body of comments alone returns nothing. -/
def returnType (policy : Name.Policy) (f : Endpoint) : Text :=
  match nonEmpty? f.responseBody with
  | some body =>
    if f.statements.all Sql.Statement.isComment then "VOID"
    else (DataType.ofName policy body).sql
  | none => "VOID"

def definition (policy : Name.Policy) (f : Endpoint) : Sql.FunctionDefinition :=
  { name := Identifier.ofFunction f.name
    arguments := (f.argumentNames.zip f.parameters).map fun (name, p) => ⟨name, p.type.sql⟩
    returns := f.returnType policy
    body := f.statements }

def sql (policy : Name.Policy) (f : Endpoint) : Text :=
  (f.definition policy).text

end Endpoint
end ApiScaffold
