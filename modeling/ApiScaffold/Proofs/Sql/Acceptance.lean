import ApiScaffold.Proofs.DataType.Mentions
import ApiScaffold.Proofs.Sql.Building
import ApiScaffold.Proofs.Sql.Soundness

namespace ApiScaffold
open Text Identifier

namespace Sql

section Texts

def Predicate.names (p : Predicate) : List Text :=
  [p.column, p.argument]

def Statement.names : Statement → List Text
  | comment _ => []
  | select table filter => table :: filter.flatMap Predicate.names
  | insert table _ => [table]
  | delete table filter _ => table :: filter.flatMap Predicate.names

/-- Every name in a node, those in its parts included. -/
def Node.names : Node → List Text
  | predicate p => p.names
  | statement s => s.names
  | column c => [c.name]
  | table t => t.name :: (t.columns.map (·.name) ++ t.primaryKey)
  | argument a => [a.name]
  | function f => f.name :: (f.arguments.map (·.name) ++ f.body.flatMap Statement.names)

/-- Every type in a node, those in its parts included. -/
def Node.types : Node → List Text
  | predicate _ | statement _ => []
  | column c => [c.type]
  | table t => t.columns.map (·.type)
  | argument a => [a.type]
  | function f => f.returns :: f.arguments.map (·.type)

theorem Predicate.isSound_iff {p : Predicate} :
    p.isSound = true ↔ ∀ s ∈ p.names, accepts s = true := by
  simp [isSound, names]

theorem filter_isSound_iff {ps : List Predicate} :
    ps.all Predicate.isSound = true ↔ ∀ s ∈ ps.flatMap Predicate.names, accepts s = true := by
  simp only [List.all_eq_true, Predicate.isSound_iff, List.forall_mem_flatMap]

theorem Statement.isSound_iff {s : Statement} :
    s.isSound = true ↔ ∀ n ∈ s.names, accepts n = true := by
  cases s with
  | comment text => simp [isSound, names]
  | select table filter =>
    rw [isSound, Bool.and_eq_true, filter_isSound_iff, names, List.forall_mem_cons]
  | insert table returning => simp [isSound, names]
  | delete table filter returning =>
    rw [isSound, Bool.and_eq_true, filter_isSound_iff, names, List.forall_mem_cons]

/-- A node is sound when all names and types in it pass their tests. -/
theorem Node.isSound_iff {n : Node} :
    n.isSound = true ↔
      (∀ s ∈ n.names, accepts s = true) ∧ ∀ t ∈ n.types, acceptsType t = true := by
  cases n with
  | predicate p => simp [isSound, names, types, Predicate.isSound_iff]
  | statement s => simp [isSound, names, types, Statement.isSound_iff]
  | column c => simp [isSound, names, types, ColumnDefinition.isSound]
  | argument a => simp [isSound, names, types, Typed.isSound]
  | table t =>
    simp only [isSound, names, types, TableDefinition.isSound, ColumnDefinition.isSound,
      Bool.and_eq_true, List.all_eq_true, List.forall_mem_cons, List.forall_mem_append,
      List.forall_mem_map]
    constructor
    · rintro ⟨⟨hname, hcolumns⟩, hkey⟩
      exact ⟨⟨hname, fun c hc => (hcolumns c hc).1, hkey⟩, fun c hc => (hcolumns c hc).2⟩
    · rintro ⟨⟨hname, hcolumns, hkey⟩, htypes⟩
      exact ⟨⟨hname, fun c hc => ⟨hcolumns c hc, htypes c hc⟩⟩, hkey⟩
  | function f =>
    simp only [isSound, names, types, FunctionDefinition.isSound, Typed.isSound,
      Statement.isSound_iff, Bool.and_eq_true, List.all_eq_true, List.forall_mem_cons,
      List.forall_mem_append, List.forall_mem_map, List.forall_mem_flatMap]
    constructor
    · rintro ⟨⟨⟨hname, harguments⟩, hreturns⟩, hbody⟩
      exact ⟨⟨hname, fun a ha => (harguments a ha).1, hbody⟩, hreturns,
        fun a ha => (harguments a ha).2⟩
    · rintro ⟨⟨hname, harguments, hbody⟩, hreturns, htypes⟩
      exact ⟨⟨⟨hname, fun a ha => ⟨harguments a ha, htypes a ha⟩⟩, hreturns⟩, hbody⟩

end Texts

section Forms
variable {t base : Text} {depth : Nat} {P Q : Text → Prop}

/-- A name that may have a line feed behind it. -/
def IsLoose (t : Text) : Prop :=
  IsName t ∨ ∃ name, IsName name ∧ t = name ++ [.char '\n']

/-- What is of a form before any number of array markers. -/
def Marked (P : Text → Prop) (t : Text) : Prop :=
  ∃ base depth, P base ∧ t = base ++ (List.replicate depth (Text.ofString "[]")).flatten

theorem IsLoose.isName (h : IsLoose t) (hfeed : .char '\n' ∉ t) : IsName t := by
  rcases h with h | ⟨name, -, rfl⟩
  · exact h
  · simp at hfeed

theorem lineFeed_not_mem_of_isName (h : IsName t) : .char '\n' ∉ t :=
  h.parts.not_mem (by decide)

theorem IsLoose.closing_not_mem (h : IsLoose t) : .char ']' ∉ t := by
  rcases h with h | ⟨name, h, rfl⟩
  · exact h.parts.not_mem (by decide)
  · have hname : .char ']' ∉ name := h.parts.not_mem (by decide)
    simp [hname]

theorem lineFeed_not_mem_markers (depth : Nat) :
    .char '\n' ∉ (List.replicate depth (Text.ofString "[]")).flatten := by
  intro h
  obtain ⟨marker, hmarker, hfeed⟩ := List.mem_flatten.mp h
  obtain rfl := List.eq_of_mem_replicate hmarker
  exact absurd hfeed (by decide)

theorem acceptsType_of_isLoose (h : IsLoose base) : acceptsType base = true := by
  have hself : DataType.BaseName base base := by
    refine .self fun hmarker => h.closing_not_mem (hmarker.subset (by decide))
  rw [acceptsType, ← DataType.baseName_iff.mp hself]
  exact accepts_iff.mpr h

theorem exists_markers (h : DataType.BaseName t base) :
    ∃ depth, t = base ++ (List.replicate depth (Text.ofString "[]")).flatten := by
  induction h with
  | self => exact ⟨0, by simp⟩
  | array h ih =>
    obtain ⟨depth, rfl⟩ := ih
    exact ⟨depth + 1, by simp [List.replicate_succ', List.flatten_append]⟩

/-- Markers are taken off the end until there are none, and what is left is tested as a name. -/
theorem acceptsType_iff : acceptsType t = true ↔ Marked IsLoose t := by
  constructor
  · intro h
    have hbase := DataType.baseName_iff.mpr (rfl : (DataType.splitMarkers t.reverse).1.reverse = _)
    obtain ⟨depth, ht⟩ := exists_markers hbase
    exact ⟨_, depth, accepts_iff.mp h, ht⟩
  · rintro ⟨base, depth, hbase, rfl⟩
    induction depth with
    | zero => simpa using acceptsType_of_isLoose hbase
    | succ depth ih =>
      rw [List.replicate_succ', List.flatten_concat, ← List.append_assoc,
        acceptsType_append_marker]
      exact ih

end Forms

/-- Exactly those nodes can be built in which every name is one that may have a line feed behind it,
and every type is such a name before array markers. All of them are names and types as they should
be just in the nodes that hold no line feed there. -/
theorem built_iff (n : Node) :
    (Built n ↔ (∀ s ∈ n.names, IsLoose s) ∧ ∀ t ∈ n.types, Marked IsLoose t) ∧
    ((∀ s ∈ n.names, IsName s) ∧ (∀ t ∈ n.types, Marked IsName t) ↔
      Built n ∧ ∀ x ∈ n.names ++ n.types, .char '\n' ∉ x) := by
  have hbuilt : Built n ↔ (∀ s ∈ n.names, IsLoose s) ∧ ∀ t ∈ n.types, Marked IsLoose t := by
    simp only [built_iff_isSound, Node.isSound_iff, accepts_iff, acceptsType_iff, IsLoose]
  refine ⟨hbuilt, ?_⟩
  rw [hbuilt, List.forall_mem_append]
  constructor
  · rintro ⟨hnames, htypes⟩
    refine ⟨⟨fun s hs => .inl (hnames s hs), fun t ht => ?_⟩,
      fun s hs => lineFeed_not_mem_of_isName (hnames s hs), fun t ht => ?_⟩
    · obtain ⟨base, depth, hbase, rfl⟩ := htypes t ht
      exact ⟨base, depth, .inl hbase, rfl⟩
    · obtain ⟨base, depth, hbase, rfl⟩ := htypes t ht
      exact List.not_mem_append (lineFeed_not_mem_of_isName hbase) (lineFeed_not_mem_markers depth)
  · rintro ⟨⟨hnames, htypes⟩, hnamesFeed, htypesFeed⟩
    refine ⟨fun s hs => (hnames s hs).isName (hnamesFeed s hs), fun t ht => ?_⟩
    obtain ⟨base, depth, hbase, rfl⟩ := htypes t ht
    exact ⟨base, depth, hbase.isName fun h => htypesFeed _ ht (List.mem_append_left _ h), rfl⟩

/-- A column that takes three lines. -/
theorem built_brokenColumn :
    Built (.column ⟨"a\n", "b\n[]", false⟩) ∧
      (Node.column ⟨"a\n", "b\n[]", false⟩).rendered = .inr "a\n b\n[]" ∧
      ¬ IsName "a\n" ∧ ¬ Marked IsName "b\n[]" := by
  have hname : ¬ IsName "a\n" := fun h => lineFeed_not_mem_of_isName h (by decide)
  refine ⟨built_iff_isSound.mpr (by decide), by decide +kernel, hname, ?_⟩
  rintro ⟨base, depth, hbase, he⟩
  have hfeed : CodePoint.char '\n' ∈ Text.ofString "b\n[]" := by decide
  rw [he] at hfeed
  have hmarkers := lineFeed_not_mem_markers depth
  exact List.not_mem_append (lineFeed_not_mem_of_isName hbase) hmarkers hfeed

end Sql
end ApiScaffold
