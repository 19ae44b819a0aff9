import ApiScaffold.Proofs.Name.Claimed
import ApiScaffold.Proofs.Sql.FilterColumns
import ApiScaffold.Proofs.Sql.Soundness
import ApiScaffold.Proofs.Sql.TableReading
import ApiScaffold.Proofs.Text.Infix

namespace ApiScaffold
open Text

namespace Sql

section KeyClause
variable {between rest word name : Text} {ts names : List Text} {c : ColumnDefinition}

/-- How often the words of the key clause stand in a text. -/
def keyClauses (t : Text) : Nat :=
  occurrences (Text.ofString "PRIMARY KEY") t

theorem keyWords_eq :
    Text.ofString "PRIMARY KEY" = Text.ofString "PRIMARY" ++ .char ' ' :: Text.ofString "KEY" :=
  rfl

theorem keyClauses_word (hword : .char ' ' ∉ word) (rest : Text) :
    keyClauses (word ++ .char ' ' :: rest) = keyClauses rest +
      if Text.ofString "PRIMARY" <:+ word ∧ Text.ofString "KEY" <+: rest then 1 else 0 := by
  rw [keyClauses, keyClauses, keyWords_eq]
  exact occurrences_word (by decide) (by decide) hword

theorem keyClauses_of_not_mem (h : .char ' ' ∉ word) : keyClauses word = 0 := by
  rw [keyClauses, keyWords_eq]
  exact occurrences_of_not_mem h

theorem keyClauses_blank (rest : Text) : keyClauses (.char ' ' :: rest) = keyClauses rest := by
  have hnone : ¬ Text.ofString "PRIMARY" <:+ [] := by decide
  have hempty : CodePoint.char ' ' ∉ ([] : Text) := List.not_mem_nil
  have hword := keyClauses_word hempty rest
  simpa [hnone] using hword

/-- A sign that the clause does not hold cuts the text. -/
theorem keyClauses_sign {d : Char} (hd : .char d ∉ Text.ofString "PRIMARY KEY") (word rest : Text) :
    keyClauses (word ++ .char d :: rest) = keyClauses word + keyClauses rest := by
  have hne : Text.ofString "PRIMARY KEY" ≠ [] := by decide
  have hopens : Seam (Text.ofString "PRIMARY KEY") word (.char d :: rest) :=
    seam_of_head fun y hy => Option.some.inj hy ▸ hd
  have hcloses : Seam (Text.ofString "PRIMARY KEY") [.char d] rest :=
    Free.seam fun y hy => List.mem_singleton.mp hy ▸ hd
  have hrest : keyClauses (.char d :: rest) = keyClauses [.char d] + keyClauses rest :=
    hcloses.occurrences_append hne
  have hsign : keyClauses [.char d] = 0 := by
    apply keyClauses_of_not_mem
    intro hm
    rw [← List.mem_singleton.mp hm] at hd
    exact hd (by decide)
  rw [keyClauses, hopens.occurrences_append hne, ← keyClauses, ← keyClauses, hrest, hsign,
    Nat.zero_add]

theorem keyClauses_joined
    (hb : ∀ s t, keyClauses (s ++ (between ++ t)) = keyClauses s + keyClauses t)
    (h : ∀ t ∈ ts, keyClauses t = 0) : keyClauses (joined between ts) = 0 := by
  induction ts with
  | nil => exact keyClauses_of_not_mem List.not_mem_nil
  | cons t ts ih =>
    obtain ⟨ht, hts⟩ := List.forall_mem_cons.mp h
    cases ts with
    | nil => simpa [joined] using ht
    | cons u ts =>
      rw [joined, List.intercalate_cons_cons, ← joined, List.append_assoc, hb, ht, ih hts]

theorem blank_not_mem_quote (h : Identifier.IsName name) : .char ' ' ∉ quote name := by
  have hname : .char ' ' ∉ name := h.parts.not_mem (by decide)
  unfold quote
  split
  · simp [hname, ofString, ofChars]
  · exact hname

/-- No type goes on after a name as the clause would. -/
theorem keyClauses_columnText (hname : Identifier.IsName c.name) (htype : IsTypeWord c.type)
    (hk : c.type.head? ≠ some (.char 'K')) : keyClauses c.text = 0 := by
  let null : Text := Text.ofString (if c.notNull then " NOT NULL" else "")
  have htext : c.text = quote c.name ++ .char ' ' :: (c.type ++ null) := by
    simp [ColumnDefinition.text, null, ofString, ofChars]
  have hblank : .char ' ' ∉ c.type := htype.parts.not_mem (by decide)
  have hnokey : ¬ Text.ofString "KEY" <+: c.type ++ null := by
    obtain ⟨p, type, hp⟩ := List.exists_cons_of_ne_nil htype.ne_nil
    rw [hp] at hk ⊢
    intro h
    obtain ⟨he, -⟩ := List.cons_prefix_cons.mp h
    exact hk (congrArg some he.symm)
  have hrest : keyClauses (c.type ++ null) = 0 := by
    cases hn : c.notNull with
    | false =>
      have hnull : null = [] := by simp [null, hn, ofString, ofChars]
      rw [hnull, List.append_nil]
      exact keyClauses_of_not_mem hblank
    | true =>
      have hnull : null = .char ' ' :: Text.ofString "NOT NULL" := by
        simp [null, hn, ofString, ofChars]
      have hnone : ¬ Text.ofString "KEY" <+: Text.ofString "NOT NULL" := by decide
      have hlast : keyClauses "NOT NULL" = 0 := by decide
      rw [hnull, keyClauses_word hblank]
      simp [hnone, hlast]
  rw [htext, keyClauses_word (blank_not_mem_quote hname), hrest]
  simp [hnokey]

theorem keyClauses_comma (s t : Text) :
    keyClauses (s ++ (", " ++ t)) = keyClauses s + keyClauses t :=
  (keyClauses_sign (by decide) s _).trans (congrArg _ (keyClauses_blank t))

theorem keyClauses_clause {list : Text} (h : keyClauses list = 0) (s : Text) :
    keyClauses (s ++ (", PRIMARY KEY (" ++ list ++ ")")) = keyClauses s + 1 := by
  have hopening : keyClauses (" PRIMARY KEY ") = 1 := by decide
  have hclosing : keyClauses [] = 0 := keyClauses_of_not_mem List.not_mem_nil
  calc keyClauses (s ++ (", PRIMARY KEY (" ++ list ++ ")"))
      = keyClauses (s ++ .char ',' ::
          (Text.ofString " PRIMARY KEY " ++ .char '(' :: (list ++ [.char ')']))) := by
        simp [ofString, ofChars]
    _ = keyClauses s + 1 := by
      rw [keyClauses_sign (by decide), keyClauses_sign (by decide), keyClauses_sign (by decide),
        hopening, h, hclosing]

/-- Behind the columns a key has its clause once. -/
theorem keyClauses_append_keyText {key : List Text} (h : ∀ k ∈ key, Identifier.IsName k)
    (s : Text) :
    keyClauses (s ++ keyText key) = keyClauses s + if key.isEmpty then 0 else 1 := by
  cases key with
  | nil => simp [keyText, ofString, ofChars]
  | cons k ks =>
    have hnames : keyClauses (joined ", " ((k :: ks).map quote)) = 0 := by
      apply keyClauses_joined keyClauses_comma
      intro t ht
      obtain ⟨n, hn, rfl⟩ := List.mem_map.mp ht
      exact keyClauses_of_not_mem (blank_not_mem_quote (h n hn))
    exact keyClauses_clause hnames s

variable {d : TableDefinition}

theorem keyClauses_separator (s t : Text) :
    keyClauses (s ++ (",\n" ++ indent ++ t)) = keyClauses s + keyClauses t := by
  calc keyClauses (s ++ (",\n" ++ indent ++ t))
      = keyClauses (s ++ .char ',' :: ([] ++ .char '\n' :: .char ' ' :: .char ' ' :: t)) := rfl
    _ = keyClauses s + keyClauses t := by
      rw [keyClauses_sign (by decide), keyClauses_sign (by decide), keyClauses_blank,
        keyClauses_blank, keyClauses_of_not_mem List.not_mem_nil, Nat.zero_add]

theorem keyClauses_opening (h : Identifier.IsName name) (rest : Text) :
    keyClauses ("CREATE TABLE IF NOT EXISTS " ++ quote name ++ " (" ++ rest) = keyClauses rest := by
  have hwords : keyClauses "CREATE TABLE IF NOT EXIST" = 0 := by decide
  have hempty : keyClauses [] = 0 := keyClauses_of_not_mem List.not_mem_nil
  have hname : keyClauses (quote name ++ [.char ' ']) = 0 := by
    have hnone : ¬ Text.ofString "KEY" <+: [] := by decide
    rw [keyClauses_word (blank_not_mem_quote h), hempty]
    simp [hnone]
  calc keyClauses ("CREATE TABLE IF NOT EXISTS " ++ quote name ++ " (" ++ rest)
      = keyClauses (Text.ofString "CREATE TABLE IF NOT EXIST" ++ .char 'S' ::
          (.char ' ' :: (quote name ++ [.char ' ']) ++ .char '(' :: rest)) := by
        simp [ofString, ofChars]
    _ = keyClauses rest := by
      rw [keyClauses_sign (by decide), keyClauses_sign (by decide), keyClauses_blank, hwords, hname,
        Nat.zero_add, Nat.zero_add]

/-- Nothing but the clause itself spells it: no name and no type does, alone or with what is
written around it. -/
theorem keyClauses_tableText (h : d.Legible)
    (hk : ∀ c ∈ d.columns, c.type.head? ≠ some (.char 'K')) :
    keyClauses d.text = if d.primaryKey.isEmpty then 0 else 1 := by
  have hcolumns :
      keyClauses (joined (",\n" ++ indent) (d.columns.map ColumnDefinition.text)) = 0 := by
    apply keyClauses_joined keyClauses_separator
    intro t ht
    obtain ⟨c, hc, rfl⟩ := List.mem_map.mp ht
    exact keyClauses_columnText (h.columns c hc).1 (h.columns c hc).2 (hk c hc)
  have hclosing : keyClauses ");" = 0 := by decide
  by_cases hd : d.columns = []
  · have htext : d.text = "CREATE TABLE IF NOT EXISTS " ++ quote d.name ++ " (" ++ ");" := by
      simp [TableDefinition.text, hd, ofString, ofChars]
    rw [htext, keyClauses_opening h.name, hclosing, h.keyed hd]
    rfl
  · obtain ⟨items, hitems⟩ : ∃ items, items =
        joined (",\n" ++ indent) (d.columns.map ColumnDefinition.text) ++ keyText d.primaryKey :=
      ⟨_, rfl⟩
    let body : Text := [] ++ .char '\n' :: .char ' ' :: .char ' ' ::
      (items ++ .char '\n' :: Text.ofString ");")
    have htext : d.text = "CREATE TABLE IF NOT EXISTS " ++ quote d.name ++ " (" ++ body := by
      simp [TableDefinition.text, hd, hitems, body, indent, ofString, ofChars]
    rw [htext, keyClauses_opening h.name, keyClauses_sign (by decide), keyClauses_blank,
      keyClauses_blank, keyClauses_sign (by decide), hclosing, hitems,
      keyClauses_append_keyText h.key, hcolumns, keyClauses_of_not_mem List.not_mem_nil]
    simp

end KeyClause

end Sql

open Sql

theorem DataType.head?_sql (t : DataType) : (Text.ofString t.sql).head? ≠ some (.char 'K') := by
  have hhead : (Text.ofString t.sql).head? ∈ sqlWords.map List.head? := by
    refine t.sql_induction (fun w hw => List.mem_map_of_mem hw) fun x hx => ?_
    have hne : x ≠ [] := by
      rintro rfl
      exact absurd hx (by decide)
    rwa [List.head?_append_of_ne_nil _ hne]
  intro hk
  rw [hk] at hhead
  exact absurd hhead (by decide)

namespace Table
variable (t : Table)

theorem legible_definition : t.definition.Legible := by
  refine ⟨Identifier.isName_ofTable _, ?columns, ?key, ?keyed⟩
  case columns =>
    intro d hd
    obtain ⟨⟨c, n⟩, hz, rfl⟩ := List.mem_map.mp hd
    exact ⟨t.isName_columnNames n (List.of_mem_zip hz).2, c.type.isTypeWord_sql⟩
  case key =>
    intro k hk
    obtain ⟨⟨c, n⟩, hz, rfl⟩ := List.mem_map.mp hk
    exact t.isName_columnNames n (List.of_mem_zip (List.mem_filter.mp hz).1).2
  case keyed =>
    intro hnone
    have hzip : t.columns.zip t.columnNames = [] := List.map_eq_nil_iff.mp hnone
    simp [definition, hzip]

/-- The columns, each with its final name. -/
def namedColumns : List (Column × Text) :=
  t.columns.zip t.columnNames

theorem map_fst_namedColumns : t.namedColumns.map Prod.fst = t.columns :=
  List.map_fst_zip (by simp)

theorem zip_definition : t.columns.zip t.definition.columns =
    t.namedColumns.map fun r => (r.1, ⟨r.2, r.1.type.sql, !r.1.nullable⟩) := by
  conv_lhs => rw [← t.map_fst_namedColumns]
  exact List.zip_map'

theorem isEmpty_primaryKey :
    t.definition.primaryKey.isEmpty = !t.columns.any (·.primaryKey) := by
  have hkey : t.definition.primaryKey = (t.namedColumns.filter (·.1.primaryKey)).map (·.2) := rfl
  rw [hkey, ← t.map_fst_namedColumns, List.any_map, List.isEmpty_map]
  exact Bool.eq_iff_iff.mpr (by simp)

theorem nodup_lower_columnNames : (t.columnNames.map Text.lower).Nodup :=
  (Name.nodup_claimAll .folded [] _).1

/-- The statement of a table is read back. -/
theorem readTable_sql : ∃ d, readTable t.sql = some d ∧
    d.name = Identifier.ofTable t.name ∧
    d.columns.map (fun c => (c.type, c.notNull)) =
      t.columns.map (fun c => (Text.ofString c.type.sql, !c.nullable)) ∧
    d.primaryKey = ((t.columns.zip d.columns).filter (·.1.primaryKey)).map (·.2.name) ∧
    (d.columns.map fun c => Text.lower c.name).Nodup ∧
    occurrences (Text.ofString "PRIMARY KEY") t.sql =
      if t.columns.any (·.primaryKey) then 1 else 0 := by
  refine ⟨t.definition, readTable_text t.legible_definition, rfl, ?columns, ?key, ?apart, ?clause⟩
  case columns =>
    conv_rhs => rw [← t.map_fst_namedColumns]
    rw [definition, List.map_map, List.map_map]
    rfl
  case key =>
    rw [zip_definition, List.filter_map, List.map_map]
    rfl
  case apart =>
    have hnames := congrArg (List.map Text.lower) t.names_definition
    rw [List.map_map] at hnames
    exact hnames ▸ t.nodup_lower_columnNames
  case clause =>
    have htypes : ∀ d ∈ t.definition.columns, d.type.head? ≠ some (.char 'K') := by
      intro d hd
      obtain ⟨⟨c, n⟩, -, rfl⟩ := List.mem_map.mp hd
      exact c.type.head?_sql
    have hclauses : occurrences (Text.ofString "PRIMARY KEY") t.sql = _ :=
      keyClauses_tableText t.legible_definition htypes
    rw [hclauses, isEmpty_primaryKey]
    cases t.columns.any (·.primaryKey) <;> rfl

end Table
end ApiScaffold
