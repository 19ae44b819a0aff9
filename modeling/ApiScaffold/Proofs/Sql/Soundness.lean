import ApiScaffold.Proofs.Sql.Construction

namespace ApiScaffold
open Text Identifier

namespace Sql

theorem acceptsType_append_marker (t : Text) : acceptsType (t ++ "[]") = acceptsType t := by
  have hm : (t ++ ofString "[]").reverse = .char ']' :: .char '[' :: t.reverse := by
    rw [List.reverse_append]
    rfl
  simp only [acceptsType, hm, DataType.splitMarkers]

end Sql

open Sql

/-- The words for types are names, and markers stand only behind them. -/
theorem DataType.acceptsType_sql (t : DataType) : acceptsType t.sql = true :=
  t.sql_induction (by decide) fun x h => (acceptsType_append_marker x).trans h

theorem isName_cleanAll {fallback : Text} {names : List Text} (hf : IsName fallback) :
    ∀ n ∈ cleanAll fallback names, IsName n := by
  intro n hn
  obtain ⟨i, hi, rfl⟩ := List.mem_mapIdx.mp hn
  have hd := (over_toString i).mono fun _ h => isPart_of_isDigit h
  exact isName_clean (hf.append hd)

namespace Table
variable (t : Table)

theorem isName_columnNames : ∀ n ∈ t.columnNames, IsName n := by
  apply Name.claimAll_forall fun n k h => Name.isName_numbered h k
  exact isName_cleanAll (by decide)

theorem isSound_definition : t.definition.isSound = true := by
  have hcolumn : ∀ c n, (c, n) ∈ t.columns.zip t.columnNames → accepts n = true := by
    intro c n hz
    exact accepts_of_isName (t.isName_columnNames n (List.of_mem_zip hz).2)
  simp only [TableDefinition.isSound, Bool.and_eq_true, List.all_eq_true]
  refine ⟨⟨accepts_of_isName (isName_ofTable _), ?columns⟩, ?key⟩
  case columns =>
    intro d hd
    obtain ⟨⟨c, n⟩, hz, rfl⟩ := List.mem_map.mp hd
    exact Bool.and_eq_true_iff.mpr ⟨hcolumn c n hz, c.type.acceptsType_sql⟩
  case key =>
    intro k hk
    obtain ⟨⟨c, n⟩, hz, rfl⟩ := List.mem_map.mp hk
    exact hcolumn c n (List.mem_filter.mp hz).1

/-- What is built for the text of a table. -/
def nodes : List Node :=
  t.definition.columns.map .column ++ [.table t.definition]

theorem definition_mem_nodes : .table t.definition ∈ t.nodes :=
  List.mem_append_right _ List.mem_cons_self

theorem isSound_of_mem_nodes : ∀ n ∈ t.nodes, n.isSound = true := by
  have hdefinition := t.isSound_definition
  intro n hn
  rcases List.mem_append.mp hn with hc | ht
  · obtain ⟨c, hm, rfl⟩ := List.mem_map.mp hc
    simp only [TableDefinition.isSound, Bool.and_eq_true, List.all_eq_true] at hdefinition
    exact hdefinition.1.2 c hm
  · obtain rfl := List.mem_singleton.mp ht
    exact hdefinition

end Table

namespace Endpoint
variable (f : Endpoint)

theorem isName_argumentNames : ∀ n ∈ f.argumentNames, IsName n := by
  apply Name.claimAll_forall fun n k h => Name.isName_numbered h k
  intro n hn
  obtain ⟨m, hm, rfl⟩ := List.mem_map.mp hn
  exact isName_underscore (over_cleanAll (by decide) m hm)

theorem isName_tableName : IsName f.tableName :=
  isName_clean (isName_ofFunction _)

theorem isName_of_mem_pathFilter : ∀ p ∈ f.pathFilter, IsName p.column ∧ IsName p.argument := by
  intro p hp
  obtain ⟨⟨q, column, argument⟩, hm, rfl⟩ := List.mem_map.mp hp
  obtain ⟨hc, ha⟩ := List.of_mem_zip (List.of_mem_zip (List.mem_filter.mp hm).1).2
  exact ⟨isName_cleanAll (by decide) column hc, f.isName_argumentNames argument ha⟩

theorem isSound_of_mem_pathFilter : ∀ p ∈ f.pathFilter, p.isSound = true := by
  intro p hp
  obtain ⟨hc, ha⟩ := f.isName_of_mem_pathFilter p hp
  exact Bool.and_eq_true_iff.mpr ⟨accepts_of_isName hc, accepts_of_isName ha⟩

theorem isSound_of_mem_statements : ∀ s ∈ f.statements, s.isSound = true := by
  have htable := accepts_of_isName f.isName_tableName
  have hfilter : f.pathFilter.all Predicate.isSound = true :=
    List.all_eq_true.mpr f.isSound_of_mem_pathFilter
  -- What an update would change stands in comments alone, and a comment may hold any text.
  have hplaceholder : f.bodyPlaceholder.isSound = true := rfl
  have htarget : f.updateTarget.isSound = true := rfl
  intro s hs
  unfold statements at hs
  cases hm : f.method
  all_goals simp only [hm, List.mem_append, List.mem_map, List.mem_cons, List.not_mem_nil,
    or_false] at hs
  case get =>
    rcases hs with ⟨p, -, rfl⟩ | rfl
    · rfl
    · simp only [Statement.isSound, htable, hfilter, Bool.and_self]
  case post =>
    rcases hs with rfl | rfl
    · exact hplaceholder
    · exact htable
  case put | patch =>
    rcases hs with rfl | rfl
    · exact hplaceholder
    · exact htarget
  case delete =>
    obtain rfl := hs
    simp only [Statement.isSound, htable, hfilter, Bool.and_self]
  case head | options | trace =>
    obtain rfl := hs
    rfl

variable (policy : Name.Policy)

theorem acceptsType_returnType : acceptsType (f.returnType policy) = true := by
  unfold returnType
  split
  · split
    · decide
    · exact DataType.acceptsType_sql _
  · decide

theorem isSound_of_mem_arguments : ∀ a ∈ (f.definition policy).arguments, a.isSound = true := by
  intro a ha
  obtain ⟨⟨n, p⟩, hz, rfl⟩ := List.mem_map.mp ha
  have hn := f.isName_argumentNames n (List.of_mem_zip hz).1
  exact Bool.and_eq_true_iff.mpr ⟨accepts_of_isName hn, p.type.acceptsType_sql⟩

theorem isSound_definition : (f.definition policy).isSound = true := by
  simp only [FunctionDefinition.isSound, Bool.and_eq_true, List.all_eq_true]
  exact ⟨⟨⟨accepts_of_isName (isName_ofFunction _), f.isSound_of_mem_arguments policy⟩,
    f.acceptsType_returnType policy⟩, f.isSound_of_mem_statements⟩

/-- What is built for the text of a function. The filter is built whatever becomes of it: an
update only tells of it in a comment. -/
def nodes : List Node :=
  f.pathFilter.map .predicate ++ f.statements.map .statement ++
    (f.definition policy).arguments.map .argument ++ [.function (f.definition policy)]

theorem definition_mem_nodes : .function (f.definition policy) ∈ f.nodes policy :=
  List.mem_append_right _ List.mem_cons_self

theorem isSound_of_mem_nodes : ∀ n ∈ f.nodes policy, n.isSound = true := by
  intro n hn
  simp only [nodes, List.mem_append, List.mem_map, List.mem_singleton] at hn
  rcases hn with ((⟨p, hp, rfl⟩ | ⟨s, hs, rfl⟩) | ⟨a, ha, rfl⟩) | rfl
  · exact f.isSound_of_mem_pathFilter p hp
  · exact f.isSound_of_mem_statements s hs
  · exact f.isSound_of_mem_arguments policy a ha
  · exact f.isSound_definition policy

end Endpoint

/-- No name and no type is ever refused: the texts of a table and of a function are those of nodes
that are built, and each node on the way passes all checks of its builder. -/
theorem check_fields_of_mem_nodes (policy : Name.Policy) (t : Table) (f : Endpoint) :
    (∃ n ∈ t.nodes, n.rendered = .inr t.sql) ∧
      (∃ n ∈ f.nodes policy, n.rendered = .inr (f.sql policy)) ∧
      ∀ n ∈ t.nodes ++ f.nodes policy,
        n.isSound = true ∧ Node.check n.fields n.form = .valid n := by
  refine ⟨⟨_, t.definition_mem_nodes, rfl⟩, ⟨_, f.definition_mem_nodes policy, rfl⟩, ?_⟩
  intro n hn
  have hsound : n.isSound = true := by
    rcases List.mem_append.mp hn with ht | hf
    · exact t.isSound_of_mem_nodes n ht
    · exact f.isSound_of_mem_nodes policy n hf
  exact ⟨hsound, Node.check_fields hsound⟩

/-- A nameless deletion by two parameters whose names differ only in case. -/
def Endpoint.twins : Endpoint :=
  ⟨"", .delete, "/", [⟨"2nd", .path, true, .array .unknown⟩, ⟨"2ND", .path, true, .string⟩],
    none, none, ""⟩

theorem check_fields_twins :
    .predicate ⟨"_2ND", "__2ND_2"⟩ ∈ Table.nodes ⟨"", []⟩ ++ Endpoint.twins.nodes .standard ∧
      Node.check [("column", .text "_2ND"), ("placeholder", .text "__2ND_2")] .predicate =
        .valid (.predicate ⟨"_2ND", "__2ND_2"⟩) := by
  have hp : ⟨"_2ND", "__2ND_2"⟩ ∈ Endpoint.twins.pathFilter := by decide +kernel
  have hn : .predicate ⟨"_2ND", "__2ND_2"⟩ ∈
      Table.nodes ⟨"", []⟩ ++ Endpoint.twins.nodes .standard := by
    simp only [Endpoint.nodes, List.mem_append, List.mem_map]
    exact .inr (.inl (.inl (.inl ⟨_, hp, rfl⟩)))
  exact ⟨hn, (check_fields_of_mem_nodes .standard ⟨"", []⟩ Endpoint.twins).2.2 _ hn |>.2⟩

end ApiScaffold
