import ApiScaffold.Proofs.Document.Pointer
import ApiScaffold.Proofs.Document.Single
import ApiScaffold.Proofs.Document.Specification
import ApiScaffold.Proofs.Name.Cleaned
import ApiScaffold.Sql.Schema

namespace ApiScaffold
open Identifier

/-- The table that a statement reads or changes. -/
def Sql.Statement.table? : Statement → Option Text
  | comment _ => none
  | select name _ | insert name _ | delete name _ _ => some name

/-- Reading, inserting and deleting take one statement, and it is about the chosen table. -/
theorem Endpoint.tables_statements (f : Endpoint) :
    f.statements.filterMap Sql.Statement.table? =
      if f.method ∈ [.get, .post, .delete] then [f.tableName] else [] := by
  unfold statements
  cases f.method with
  | get =>
    rw [List.filterMap_append, List.filterMap_map]
    have hcomments : f.queryParameters.filterMap (Sql.Statement.table? ∘ fun p =>
        .comment ("Query parameter '" ++ p.name ++ "' is accepted but not applied as a filter.")) =
        [] :=
      List.filterMap_eq_nil_iff.mpr fun _ _ => rfl
    rw [hcomments]
    rfl
  | post | put | patch | delete | head | options | trace => rfl

namespace Document
variable {d : Document} {r function role : Text} {schema : Tree} {depth : Nat}

/-- A schema that is a reference, inside a number of arrays. -/
inductive Refers (r : Text) : Tree → Nat → Prop where
  | reference {schema : Tree} (target : reference? schema = some (.str r)) : Refers r schema 0
  | array {schema items : Tree} {depth : Nat} (bare : reference? schema = none)
      (type : (schema.get "type").str? = some ("array" : Text))
      (content : schema.get? "items" = some items) (inner : Refers r items depth) :
      Refers r schema (depth + 1)

theorem Refers.of_recurring {label : Nat} (h : Refers r (.recurring label schema) depth) :
    Refers r schema depth := by
  cases h with
  | reference target => exact .reference target
  | array bare type content inner => exact .array bare type content inner

/-- A search that ends comes to the reference, through all of the arrays. -/
theorem Refers.unwrapWithin_eq {around : List Nat} {inner : Tree} {n : Nat}
    (h : Refers r schema depth) (hu : unwrapWithin around schema = .ok (inner, n)) :
    n = depth ∧ reference? inner = some (.str r) := by
  fun_induction unwrapWithin around schema generalizing depth inner n with
  | case1 => cases hu
  | case2 around label t _ _ ih => exact ih h.of_recurring hu
  | case3 around schema _ items hitems harray ih =>
    obtain ⟨found, hfound, hu⟩ := ok_of_bind hu
    cases hu
    cases h with
    | reference target => exact absurd harray (not_isArray_of_reference target)
    | array _ _ content inner =>
      obtain rfl := Option.some.inj (content.symm.trans hitems)
      obtain ⟨rfl, htarget⟩ := ih inner hfound
      exact ⟨rfl, htarget⟩
  | case4 around schema _ hitems harray =>
    cases h with
    | reference target => exact absurd harray (not_isArray_of_reference target)
    | array _ _ content => cases content.symm.trans hitems
  | case5 around schema hno =>
    cases hu
    cases h with
    | reference target => exact ⟨rfl, target⟩
    | array bare type => exact absurd ⟨by simp [bare], type⟩ hno

/-- A body type is the name of what is referred to, with a marker for each array. -/
theorem Refers.eq_of_bodyTypeName {name : Text} (h : Refers r schema depth)
    (hn : bodyTypeName schema function role = .ok name) :
    name = referenceName r ++ (List.replicate depth (Text.ofString "[]")).flatten := by
  obtain ⟨⟨inner, n⟩, hu, -⟩ := ok_of_bind hn
  obtain ⟨rfl, htarget⟩ := h.unwrapWithin_eq hu
  rw [bodyTypeName_of_reference hu htarget] at hn
  exact (Except.ok.inj hn).symm

theorem marker_is_no_part : ∀ p ∈ Text.ofString "[]", p.is isPart = false := by
  decide

/-- Array markers are nothing to a name. -/
theorem Refers.clean_of_bodyTypeName {name : Text} (h : Refers r schema depth)
    (hn : bodyTypeName schema function role = .ok name) (fallback : Text) :
    clean fallback name = clean fallback (referenceName r) := by
  rw [h.eq_of_bodyTypeName hn]
  apply clean_append
  intro p hp
  obtain ⟨marker, hmarker, hp⟩ := List.mem_flatten.mp hp
  obtain rfl := List.eq_of_mem_replicate hmarker
  exact marker_is_no_part p hp

/-- The schema that decides about the table: the one of the response where it is read, and else the
one of the request. -/
def Operation.tableSchema (d : Document) (o : Operation) : Traced (Option Tree) :=
  if o.method = .get then d.responseSchema o.value
  else do
    let parameters ← d.mergeParameters o.shared (o.value.get "parameters")
    d.requestSchema o.value parameters

/-- The chosen table has the name of the schema's type, where the schema has a type. -/
theorem Operation.tableName_of_endpoint {o : Operation} {f : Endpoint}
    (hf : (o.endpoint d).result = .ok f) (hs : (o.tableSchema d).result = .ok (some schema)) :
    ∃ role name, bodyTypeName schema f.name role = .ok name ∧
      f.tableName = clean (ofFunction f.name) name := by
  obtain ⟨raw, hraw, hf⟩ := Traced.ok_of_bind hf
  obtain ⟨parameters, -, hf⟩ := Traced.ok_of_bind hf
  obtain ⟨request, hrequest, hf⟩ := Traced.ok_of_bind hf
  obtain ⟨response, hresponse, hf⟩ := Traced.ok_of_bind hf
  cases hf
  unfold tableSchema at hs
  split at hs
  · rename_i hget
    rw [result_responseBody, hs] at hresponse
    obtain ⟨name, hname, rfl⟩ := eq_some_of_mapM_bodyTypeName hresponse
    exact ⟨"response", name, hname, by simp only [Endpoint.tableName, hget, if_true]; rfl⟩
  · rename_i hother
    rw [Traced.result_bind_of_ok hraw] at hs
    rw [result_requestBody, hs] at hrequest
    obtain ⟨name, hname, rfl⟩ := eq_some_of_mapM_bodyTypeName hrequest
    exact ⟨"request", name, hname, by simp only [Endpoint.tableName, hother, if_false]; rfl⟩

/-- The body that decides about the table of the function is a reference to the entity, or arrays of
one. -/
def DrawsOn (d : Document) (f : Endpoint) (entity : Text) : Prop :=
  ∃ o schema r depth, d.Declares o ∧ (o.endpoint d).result = .ok f ∧
    (o.tableSchema d).result = .ok (some schema) ∧ Refers r schema depth ∧
    pointer? r = some (d.entityPath ++ [entity]) ∧ (d.lookup r).isSome = true

variable {f : Endpoint} {entity : Text}

theorem DrawsOn.tableName_eq (h : d.DrawsOn f entity) :
    f.tableName = clean (ofFunction f.name) entity := by
  obtain ⟨o, schema, r, depth, -, hf, hs, hrefers, hpointer, -⟩ := h
  obtain ⟨role, name, hname, htable⟩ := Operation.tableName_of_endpoint hf hs
  rw [htable, hrefers.clean_of_bodyTypeName hname, referenceName_eq hpointer]

theorem DrawsOn.exists_table {policy : Name.Policy} {s : Spec} (h : d.DrawsOn f entity)
    (hp : Parsed policy d s) : ∃ t ∈ s.tables, t.name = entity := by
  obtain ⟨-, -, r, -, -, -, -, -, hpointer, hfound⟩ := h
  rw [lookup_eq_descend hpointer, descend_entityPath] at hfound
  obtain ⟨target, htarget⟩ := Option.isSome_iff_exists.mp hfound
  obtain ⟨t, ht, hname⟩ := exists_table_of_mem hp.tables (Tree.mem_of_find?_str htarget)
  exact ⟨t, ht, (Except.ok.inj hname).symm⟩

theorem DrawsOn.mem_functions {policy : Name.Policy} {s : Spec} (h : d.DrawsOn f entity)
    (hp : Parsed policy d s) : f ∈ s.functions := by
  obtain ⟨o, -, -, -, ho, hf, -⟩ := h
  exact hp.mem_functions_iff.mpr ⟨o, ho, hf⟩

/-- A function that draws on an entity is about the table of this entity, unless nothing is left of
the entity's name: then table and function each have a fallback of their own. -/
theorem tableName_eq_table_iff {policy : Name.Policy} {root : Tree} {s : Spec}
    (h : (spec policy root).result = .ok s) (hf : DrawsOn ⟨root⟩ f entity) :
    f ∈ s.functions ∧
      f.statements.filterMap Sql.Statement.table? =
        (if f.method ∈ [.get, .post, .delete] then [f.tableName] else []) ∧
      ∃ t ∈ s.tables, t.name = entity ∧
        (f.tableName = t.definition.name ↔
          (∃ p ∈ entity, p.is isPart = true) ∨ ofFunction f.name = "unnamed_table") := by
  have hparsed := parsed_of_spec h
  obtain ⟨t, ht, rfl⟩ := hf.exists_table hparsed
  have htable : t.definition.name = clean "unnamed_table" t.name := rfl
  refine ⟨hf.mem_functions hparsed, f.tables_statements, t, ht, rfl, ?_⟩
  rw [hf.tableName_eq, htable]
  exact clean_eq_clean_iff

/-- Arrays of what a reference stands for. -/
def arrayOf (reference : Text) : Tree :=
  .map [(.str "type", .str "array"), (.str "items", .map [(.str "$ref", .str reference)])]

def lister (reference : Text) : Operation :=
  ⟨.get, "/all",
    .map [(.str "responses", .map [(.str "200", .map [(.str "schema", arrayOf reference)])])],
    .null⟩

/-- A description of one entity, which one operation lists. -/
def listing (entity reference : Text) : Tree :=
  .map [(.str "definitions", .map [(.str entity, .map [])]),
    (.str "paths", .map [(.str "/all", .map [(.str "get", (lister reference).value)])])]

def listed (reference : Text) : Endpoint :=
  ⟨"getAll", .get, "/all", [], none, some (bodyType (arrayOf reference) "getAll" "response"), ""⟩

variable {reference : Text}

theorem not_arrayOfItself_arrayOf (reference : Text) : ¬ ArrayOfItself (arrayOf reference) := by
  have hstep : Inward (arrayOf reference) (.map [(.str "$ref", .str reference)]) :=
    .items rfl ⟨rfl, rfl⟩ rfl
  rw [hstep.arrayOfItself_iff]
  rintro (⟨label, he, -⟩ | h)
  · cases he
  · exact not_arrayOfItself_of_not_isArray (not_isArray_of_reference rfl) h

theorem endpoint_lister (d : Document) :
    ((lister reference).endpoint d).result = .ok (listed reference) := by
  have hname : bodyTypeName (arrayOf reference) "getAll" "response" =
      .ok (bodyType (arrayOf reference) "getAll" "response") :=
    bodyTypeName_eq (not_arrayOfItself_arrayOf reference)
  have hresponse : (d.responseBody "getAll" (lister reference).value).result =
      .ok (some (bodyType (arrayOf reference) "getAll" "response")) :=
    result_responseBody_of_schema rfl hname
  have hfunction : functionName Method.get.name "/all" = "getAll" := by rfl
  exact Operation.endpoint_of hfunction rfl rfl rfl hresponse

theorem spec_listing (h : (Spec.mk [⟨entity, []⟩] [listed reference]).collisions = []) :
    (spec .standard (listing entity reference)).result =
      .ok ⟨[⟨entity, []⟩], [listed reference]⟩ := by
  have hsingle : listing entity reference = single entity (.map []) (lister reference) := rfl
  rw [hsingle]
  exact spec_single rfl rfl (result_table_empty _ _ _) (endpoint_lister _) h

theorem drawsOn_listed (hp : pointer? reference = some [Text.ofString "definitions", entity])
    (hl : (lookup ⟨listing entity reference⟩ reference).isSome = true) :
    DrawsOn ⟨listing entity reference⟩ (listed reference) entity := by
  have hof : (lister reference).IsOf (.str "/all")
      (.map [(.str "get", (lister reference).value)]) := by
    constructor <;> dsimp only [lister, Method.key] <;> rfl
  have hdeclared : Declares ⟨listing entity reference⟩ (lister reference) :=
    ⟨_, _, _, _, rfl, List.mem_cons_self, rfl, hof⟩
  have hrefers : Refers reference (arrayOf reference) 1 := .array rfl rfl rfl (.reference rfl)
  exact ⟨lister reference, arrayOf reference, reference, 1, hdeclared, endpoint_lister _, rfl,
    hrefers, hp, hl⟩

/-- The key `9~lives` is escaped in the reference, and its table begins with an underscore. -/
theorem tableName_listed_lives :
    (spec .standard (listing "9~lives" "#/definitions/9~0lives")).result =
        .ok ⟨[⟨"9~lives", []⟩], [listed "#/definitions/9~0lives"]⟩ ∧
      DrawsOn ⟨listing "9~lives" "#/definitions/9~0lives"⟩ (listed "#/definitions/9~0lives")
        "9~lives" ∧
      (Table.mk "9~lives" []).definition.name = "_9lives" ∧
      (listed "#/definitions/9~0lives").tableName = (Table.mk "9~lives" []).definition.name := by
  have hcollisions :
      (Spec.mk [⟨"9~lives", []⟩] [listed "#/definitions/9~0lives"]).collisions = [] := by
    decide +kernel
  have hspec := spec_listing hcollisions
  have hdraws : DrawsOn ⟨listing "9~lives" "#/definitions/9~0lives"⟩
      (listed "#/definitions/9~0lives") "9~lives" :=
    drawsOn_listed rfl rfl
  obtain ⟨-, -, t, ht, -, hname⟩ := tableName_eq_table_iff hspec hdraws
  obtain rfl := List.mem_singleton.mp ht
  exact ⟨hspec, hdraws, by decide, hname.mpr (.inl ⟨.char 'l', by decide, by decide⟩)⟩

/-- Of a name in another script nothing is left. Its table is `unnamed_table` then, while the
function reads one that is called like itself. -/
theorem tableName_listed_ne :
    (spec .standard (listing "名" "#/definitions/名")).result =
        .ok ⟨[⟨"名", []⟩], [listed "#/definitions/名"]⟩ ∧
      DrawsOn ⟨listing "名" "#/definitions/名"⟩ (listed "#/definitions/名") "名" ∧
      (Table.mk "名" []).definition.name = "unnamed_table" ∧
      (listed "#/definitions/名").statements = [.select "getAll" []] := by
  have hcollisions : (Spec.mk [⟨"名", []⟩] [listed "#/definitions/名"]).collisions = [] := by
    decide +kernel
  have hdraws : DrawsOn ⟨listing "名" "#/definitions/名"⟩ (listed "#/definitions/名") "名" :=
    drawsOn_listed rfl rfl
  have hname : (listed "#/definitions/名").tableName = "getAll" := by
    rw [hdraws.tableName_eq]
    decide
  have hstatements : (listed "#/definitions/名").statements =
      [.select (listed "#/definitions/名").tableName []] :=
    rfl
  rw [hname] at hstatements
  exact ⟨spec_listing hcollisions, hdraws, by decide, hstatements⟩

end Document
end ApiScaffold
