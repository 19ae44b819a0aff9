import ApiScaffold.Proofs.Document.Single
import ApiScaffold.Proofs.Name.Claimed
import ApiScaffold.Proofs.Name.Cleaned
import ApiScaffold.Proofs.Sql.FunctionLines

namespace ApiScaffold
open Identifier Sql

/-- The predicates that the rows of a statement are picked out by. -/
def Sql.Statement.filter? : Statement → Option (List Predicate)
  | comment _ | insert _ _ => none
  | select _ filter | delete _ filter _ => some filter

theorem getElem?_cleanAll (fallback : Text) (names : List Text) (i : Nat) :
    (cleanAll fallback names)[i]? =
      names[i]?.map (clean (fallback ++ Text.ofString (toString i))) :=
  List.getElem?_mapIdx

namespace Table
variable {t : Table} {i : Nat} {c : Column} {d : ColumnDefinition}

@[simp] theorem length_columnNames : t.columnNames.length = t.columns.length := by
  simp [columnNames]

theorem names_definition (t : Table) : t.definition.columns.map (·.name) = t.columnNames := by
  have hsnd : (t.columns.zip t.columnNames).map Prod.snd = t.columnNames :=
    List.map_snd_zip (by simp)
  simpa [definition, Function.comp_def] using hsnd

/-- A column is declared under a name that those before it have left free. -/
theorem name_of_definition (hc : t.columns[i]? = some c) (hd : t.definition.columns[i]? = some d) :
    ∃ taken, d.name = Name.unique .folded taken (clean ("column" ++ toString i) c.name) ∧
      ∀ key, key ∈ taken ↔ ∃ e ∈ t.definition.columns.take i, Text.lower e.name = key := by
  have hname : t.columnNames[i]? = some d.name := by
    rw [← t.names_definition, List.getElem?_map, hd]
    rfl
  rw [columnNames, Name.getElem?_claimAll, getElem?_cleanAll, List.getElem?_map, hc] at hname
  refine ⟨_, (Option.some.inj hname).symm, fun key => ?_⟩
  change key ∈ ((t.columnNames.take i).map Text.lower).reverse ++ [] ↔ _
  rw [← t.names_definition, ← List.map_take]
  simp only [List.append_nil, List.mem_reverse, List.map_map, List.mem_map, Function.comp_apply]

end Table

namespace Endpoint
variable {f : Endpoint} {p : Parameter} {q : Predicate}

/-- The parameters, each with its column and its argument. -/
def filterRows (f : Endpoint) : List (Parameter × Text × Text) :=
  (f.parameters.zip ((cleanAll "param" (f.parameters.map (·.name))).zip f.argumentNames)).filter
    (·.1.location == .path)

theorem zip_pathFilter (f : Endpoint) :
    f.pathParameters.zip f.pathFilter =
      f.filterRows.map fun (p, column, argument) => (p, ⟨column, argument⟩) := by
  have hfst : (f.parameters.zip ((cleanAll "param" (f.parameters.map (·.name))).zip
      f.argumentNames)).map Prod.fst = f.parameters :=
    List.map_fst_zip (by simp)
  have hparameters : f.pathParameters = f.filterRows.map Prod.fst := by
    conv_lhs => rw [pathParameters, located, ← hfst]
    exact List.filter_map
  rw [hparameters]
  exact List.zip_map'

/-- A path parameter is compared with the column that its cleaned name spells. -/
theorem column_of_pathFilter (h : (p, q) ∈ f.pathParameters.zip f.pathFilter) :
    ∃ k : Nat, q.column = clean ("param" ++ toString k) p.name := by
  rw [zip_pathFilter] at h
  obtain ⟨⟨p', column, argument⟩, hrow, he⟩ := List.mem_map.mp h
  cases he
  obtain ⟨k, hk⟩ := List.mem_iff_getElem?.mp (List.mem_of_mem_filter hrow)
  rw [List.getElem?_zip_eq_some, List.getElem?_zip_eq_some, getElem?_cleanAll,
    List.getElem?_map] at hk
  obtain ⟨hp, hcolumn, -⟩ := hk
  rw [hp] at hcolumn
  exact ⟨k, (Option.some.inj hcolumn).symm⟩

/-- Reading and deleting pick out rows, and by nothing but the path parameters. -/
theorem filters_statements (f : Endpoint) :
    f.statements.filterMap Statement.filter? =
      if f.method ∈ [.get, .delete] then [f.pathFilter] else [] := by
  have hnotes : (f.notes.map Statement.comment).filterMap Statement.filter? = [] := by
    simp [Statement.filter?]
  rw [statements_eq_append_executed, List.filterMap_append, hnotes, executed]
  cases f.method <;> rfl

/-- What is left of a name never begins like the stand-in of another kind. -/
theorem param_ne_column (taken : List Text) (i k : Nat) :
    Text.ofString "param" ++ Text.ofString (toString k) ≠
      Name.unique .folded taken ("column" ++ toString i) := by
  intro h
  have hhead := congrArg List.head? h
  rcases Name.unique_eq .folded taken ("column" ++ toString i) with he | ⟨j, he⟩
  · rw [he] at hhead
    cases hhead
  · rw [he] at hhead
    cases hhead

/-- A path parameter with the name of a column picks out rows by that column just when the column
is declared under the cleaned name as it stands: when something is left of the name, and no column
before it has taken that name in any case. Else the predicate names another column, or none. -/
theorem column_of_pathFilter_iff {t : Table} {i : Nat} {c : Column} {d : ColumnDefinition}
    (hc : t.columns[i]? = some c) (hd : t.definition.columns[i]? = some d)
    (hq : (p, q) ∈ f.pathParameters.zip f.pathFilter) (hname : p.name = c.name) :
    f.statements.filterMap Statement.filter? =
        (if f.method ∈ [.get, .delete] then [f.pathFilter] else []) ∧
      (q.column = d.name ↔ (∃ x ∈ c.name, x.is isPart = true) ∧
        ∀ e ∈ t.definition.columns.take i, Text.lower e.name ≠ Text.lower (clean "" c.name)) := by
  refine ⟨f.filters_statements, ?_⟩
  obtain ⟨k, hcolumn⟩ := column_of_pathFilter hq
  obtain ⟨taken, hdeclared, htaken⟩ := t.name_of_definition hc hd
  rw [hname] at hcolumn
  by_cases hpart : ∃ x ∈ c.name, x.is isPart = true
  · have hclean (fallback : Text) : clean fallback c.name = clean "" c.name :=
      clean_eq_clean_iff.mpr (.inl hpart)
    rw [hclean] at hcolumn hdeclared
    rw [hcolumn, hdeclared, eq_comm, Name.unique_eq_self_iff, and_iff_right hpart]
    change Text.lower (clean "" c.name) ∉ taken ↔ _
    simp [htaken]
  · rw [hcolumn, hdeclared, clean_eq_fallback hpart, clean_eq_fallback hpart]
    exact iff_of_false (param_ne_column taken i k) fun h => hpart h.1

end Endpoint
namespace Document

/-- A table whose columns clean up alike. -/
def pets : Table :=
  ⟨"Pet", [Text.ofString "a-b", "ab"].map (untypedColumn .standard)⟩

/-- An operation with a parameter for each of them. -/
def petByKeys : Operation :=
  ⟨.get, "/pets/\x7ba-b\x7d/\x7bab\x7d",
    .map [(.str "parameters", .list [placed "a-b" "path", placed "ab" "path"]),
      (.str "responses", .map [(.str "200", .map [(.str "schema", petReference)])])],
    .null⟩

def getPet : Endpoint :=
  ⟨"getPetsABAb", .get, petByKeys.path,
    [⟨"a-b", .path, false, .string⟩, ⟨"ab", .path, false, .string⟩], none, some "Pet", ""⟩

theorem endpoint_petByKeys (d : Document) : (petByKeys.endpoint d).result = .ok getPet := by
  have hfunction : functionName Method.get.name petByKeys.path = "getPetsABAb" := by rfl
  exact Operation.endpoint_of hfunction rfl rfl rfl
    (result_responseBody_of_schema rfl (bodyTypeName_petReference _ _))

theorem spec_petByKeys :
    (spec .standard (single "Pet" (untyped [.str "a-b", .str "ab"]) petByKeys)).result =
      .ok ⟨[pets], [getPet]⟩ := by
  have hown : withOwn (untyped [.str "a-b", .str "ab"]) .empty =
      .ok ⟨[Text.ofString "a-b", "ab"].map fun n => (n, .map []), []⟩ := rfl
  exact spec_single rfl rfl (result_table_untyped _ _ _ hown) (endpoint_petByKeys _)
    (by decide +kernel)

theorem pathFilter_getPet : getPet.pathFilter = [⟨"ab", "_ab"⟩, ⟨"ab", "_ab_2"⟩] := by
  decide +kernel

theorem columns_pets :
    pets.definition.columns = [⟨"ab", "TEXT", false⟩, ⟨"ab_2", "TEXT", false⟩] := by
  decide +kernel

/-- The first column has its cleaned name, so the parameter of its name finds it. -/
theorem column_of_pathFilter_first :
    ∃ p q c d, (p, q) ∈ getPet.pathParameters.zip getPet.pathFilter ∧
      pets.columns[0]? = some c ∧ pets.definition.columns[0]? = some d ∧ p.name = c.name ∧
      q.column = d.name := by
  have hq : ((⟨"a-b", .path, false, .string⟩, ⟨"ab", "_ab"⟩) : Parameter × Predicate) ∈
      getPet.pathParameters.zip getPet.pathFilter := by
    rw [pathFilter_getPet]
    exact List.mem_cons_self
  have hd : pets.definition.columns[0]? = some ⟨"ab", "TEXT", false⟩ := by
    rw [columns_pets]
    rfl
  have hiff := (Endpoint.column_of_pathFilter_iff (t := pets) (i := 0) rfl hd hq rfl).2
  have hpart : ∃ x ∈ Text.ofString "a-b", x.is isPart = true := ⟨.char 'a', by decide, rfl⟩
  exact ⟨_, _, _, _, hq, rfl, hd, rfl, hiff.mpr ⟨hpart, fun e he => by cases he⟩⟩

/-- The second column is numbered, and the parameter of its name picks out rows by the first. -/
theorem column_of_pathFilter_second :
    (spec .standard (single "Pet" (untyped [.str "a-b", .str "ab"]) petByKeys)).result =
        .ok ⟨[pets], [getPet]⟩ ∧
      getPet.tableName = pets.definition.name ∧
      getPet.statements = [.select "Pet" [⟨"ab", "_ab"⟩, ⟨"ab", "_ab_2"⟩]] ∧
      ∃ p q c d, (p, q) ∈ getPet.pathParameters.zip getPet.pathFilter ∧
        pets.columns[1]? = some c ∧ pets.definition.columns[1]? = some d ∧ p.name = c.name ∧
        q.column ≠ d.name := by
  have hq : ((⟨"ab", .path, false, .string⟩, ⟨"ab", "_ab_2"⟩) : Parameter × Predicate) ∈
      getPet.pathParameters.zip getPet.pathFilter := by
    rw [pathFilter_getPet]
    exact List.mem_cons_of_mem _ List.mem_cons_self
  have hd : pets.definition.columns[1]? = some ⟨"ab_2", "TEXT", false⟩ := by
    rw [columns_pets]
    rfl
  have hstatements : getPet.statements = [.select "Pet" getPet.pathFilter] := rfl
  rw [pathFilter_getPet] at hstatements
  exact ⟨spec_petByKeys, by decide, hstatements, _, _, _, _, hq, rfl, hd, rfl, by decide⟩

end Document
end ApiScaffold
