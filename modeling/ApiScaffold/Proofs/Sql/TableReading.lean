import ApiScaffold.Proofs.Sql.Lexicon

namespace ApiScaffold
open Text

namespace Sql

section Reader

/-- The names of a key, up to the parentheses that end it and the table. -/
def readKey : List Lexeme → Option (List Text)
  | [x, .sign (.char ')'), .sign (.char ')'), .sign (.char ';')] => (nameOf? x).map ([·])
  | x :: .sign (.char ',') :: rest => do
    let name ← nameOf? x
    let names ← readKey rest
    some (name :: names)
  | _ => none

/-- The columns of a table and its key, up to the parenthesis that ends them. -/
def readItems : List Lexeme → Option (List ColumnDefinition × List Text)
  | .word a :: .word b :: .sign (.char '(') :: rest =>
    if a = Text.ofString "PRIMARY" ∧ b = Text.ofString "KEY" then (readKey rest).map ([], ·)
    else none
  | [x, .word type, .sign (.char ')'), .sign (.char ';')] =>
    (nameOf? x).map fun name => ([⟨name, type, false⟩], [])
  | x :: .word type :: .sign (.char ',') :: rest => do
    let name ← nameOf? x
    let (columns, key) ← readItems rest
    some (⟨name, type, false⟩ :: columns, key)
  | [x, .word type, .word a, .word b, .sign (.char ')'), .sign (.char ';')] =>
    if a = Text.ofString "NOT" ∧ b = Text.ofString "NULL" then
      (nameOf? x).map fun name => ([⟨name, type, true⟩], [])
    else none
  | x :: .word type :: .word a :: .word b :: .sign (.char ',') :: rest =>
    if a = Text.ofString "NOT" ∧ b = Text.ofString "NULL" then do
      let name ← nameOf? x
      let (columns, key) ← readItems rest
      some (⟨name, type, true⟩ :: columns, key)
    else none
  | _ => none

/-- The words that the statement of a table opens with. -/
def createWords : List Lexeme :=
  ["CREATE", "TABLE", "IF", "NOT", "EXISTS"].map fun s => .word (Text.ofString s)

/-- The definition that a statement spells. -/
def readTable (t : Text) : Option TableDefinition := do
  let xs ← lexicon.lex t
  match xs.dropPrefix? createWords with
  | some (x :: .sign (.char '(') :: rest) => do
    let name ← nameOf? x
    let (columns, key) ←
      if rest = [.sign (.char ')'), .sign (.char ';')] then some ([], []) else readItems rest
    some ⟨name, columns, key⟩
  | _ => none

end Reader

section Lexemes
variable {c : ColumnDefinition} {key : List Text} {rest : List Lexeme}

/-- A column as it is read. -/
def columnLexemes (c : ColumnDefinition) : List Lexeme :=
  nameLexeme c.name :: .word c.type ::
    if c.notNull then [.word "NOT", .word "NULL"] else []

theorem readItems_column (c : ColumnDefinition) (rest : List Lexeme) :
    readItems (columnLexemes c ++ .sign (.char ',') :: rest) =
      (readItems rest).map (.map (c :: ·) id) := by
  obtain ⟨name, type, notNull⟩ := c
  rcases hrest : readItems rest with _ | ⟨columns, key⟩ <;>
    cases notNull <;> simp [columnLexemes, readItems, hrest]

theorem readItems_last (c : ColumnDefinition) :
    readItems (columnLexemes c ++ [.sign (.char ')'), .sign (.char ';')]) = some ([c], []) := by
  obtain ⟨name, type, notNull⟩ := c
  cases notNull <;> simp [columnLexemes, readItems]

theorem readKey_names (name : Text) (names : List Text) :
    readKey (nameLexeme name :: (names.flatMap (fun n => [.sign (.char ','), nameLexeme n]) ++
      [.sign (.char ')'), .sign (.char ')'), .sign (.char ';')])) = some (name :: names) := by
  induction names generalizing name with
  | nil => simp [readKey]
  | cons next names ih =>
    simp only [List.flatMap_cons, List.cons_append, List.nil_append]
    simp [readKey, ih next]

/-- A key as it is read behind the columns. -/
def keyLexemes : List Text → List Lexeme
  | [] => []
  | name :: names =>
    .sign (.char ',') :: .word "PRIMARY" :: .word "KEY" :: .sign (.char '(') ::
      nameLexeme name :: (names.flatMap (fun n => [.sign (.char ','), nameLexeme n]) ++
        [.sign (.char ')')])

theorem readItems_columns (c : ColumnDefinition) (cs : List ColumnDefinition) (key : List Text) :
    readItems (columnLexemes c ++
      (cs.flatMap (fun d => .sign (.char ',') :: columnLexemes d) ++
        (keyLexemes key ++ [.sign (.char ')'), .sign (.char ';')]))) = some (c :: cs, key) := by
  induction cs generalizing c with
  | nil =>
    cases key with
    | nil => exact readItems_last c
    | cons name names =>
      have hkey := readKey_names name names
      simp only [List.flatMap_nil, List.nil_append, keyLexemes, List.cons_append,
        List.append_assoc, readItems_column]
      simp [readItems, hkey]
  | cons next cs ih =>
    rw [List.flatMap_cons, List.cons_append, List.cons_append, List.append_assoc,
      readItems_column, ih next]
    rfl

end Lexemes

section Texts
variable {c : ColumnDefinition} {name : Text} {names : List Text}

/-- The names and types of a table are such that they can be read. -/
structure TableDefinition.Legible (d : TableDefinition) : Prop where
  name : Identifier.IsName d.name
  columns : ∀ c ∈ d.columns, Identifier.IsName c.name ∧ IsTypeWord c.type
  key : ∀ k ∈ d.primaryKey, Identifier.IsName k
  keyed : d.columns = [] → d.primaryKey = []

theorem lex_columnText (hname : Identifier.IsName c.name) (htype : IsTypeWord c.type) :
    lexicon.lex c.text = some (columnLexemes c) := by
  have hnull : lexicon.lex (if c.notNull then " NOT NULL" else "" : String) =
      some (if c.notNull then [.word "NOT", .word "NULL"] else []) := by
    cases c.notNull <;> decide +kernel
  refine Lexicon.lex_append_eq_some (lex_typed hname htype) hnull (Lexicon.apart_of_head ?_)
  cases c.notNull <;> decide

theorem lex_names (hname : Identifier.IsName name) (h : ∀ n ∈ names, Identifier.IsName n) :
    lexicon.lex (joined ", " ((name :: names).map quote)) =
      some (nameLexeme name :: names.flatMap fun n => [.sign (.char ','), nameLexeme n]) :=
  lex_joined_comma fun n hn => lex_quote (List.forall_mem_cons.mpr ⟨hname, h⟩ n hn)

theorem lex_keyText {key : List Text} (h : ∀ k ∈ key, Identifier.IsName k) :
    lexicon.lex (keyText key) = some (keyLexemes key) := by
  cases key with
  | nil => exact Lexicon.lex_nil
  | cons name names =>
    have hopening : lexicon.lex ", PRIMARY KEY (" = some [.sign (.char ','), .word "PRIMARY",
        .word "KEY", .sign (.char '(')] := by decide +kernel
    have hclosing : lexicon.lex ")" = some [.sign (.char ')')] := by decide +kernel
    have hstands : lexicon.Stands ", PRIMARY KEY (" := by decide
    obtain ⟨hname, hnames⟩ := List.forall_mem_cons.mp h
    have hkey := Lexicon.lex_append_eq_some
      (Lexicon.lex_append_eq_some hopening (lex_names hname hnames) hstands.apart) hclosing
      (Lexicon.apart_of_head (by decide))
    rw [keyText, List.isEmpty_cons, if_neg (by decide), hkey, keyLexemes]
    simp

variable {d : TableDefinition}

theorem lex_columns (h : d.Legible) {c : ColumnDefinition} {cs : List ColumnDefinition}
    (hd : d.columns = c :: cs) :
    lexicon.lex (joined (",\n" ++ indent) (d.columns.map ColumnDefinition.text)) =
      some (columnLexemes c ++ cs.flatMap fun d => .sign (.char ',') :: columnLexemes d) := by
  have hcomma : lexicon.lex (",\n" ++ indent) = some [.sign (.char ',')] := by decide +kernel
  have hstands : lexicon.Stands (",\n" ++ indent) := by decide
  rw [hd]
  exact Lexicon.lex_joined_map hcomma hstands fun c hc =>
    lex_columnText (h.columns c (hd ▸ hc)).1 (h.columns c (hd ▸ hc)).2

theorem lex_tableText (h : d.Legible) : lexicon.lex d.text =
    some (createWords ++ nameLexeme d.name :: .sign (.char '(') ::
      match d.columns with
      | [] => [.sign (.char ')'), .sign (.char ';')]
      | c :: cs => columnLexemes c ++ (cs.flatMap (fun d => .sign (.char ',') :: columnLexemes d) ++
        (keyLexemes d.primaryKey ++ [.sign (.char ')'), .sign (.char ';')]))) := by
  have hcreate : lexicon.lex "CREATE TABLE IF NOT EXISTS " = some createWords := by decide +kernel
  have hopening := Lexicon.lex_append_eq_some hcreate (lex_quote h.name)
    (Lexicon.apart_of_getLast (by decide))
  cases hd : d.columns with
  | nil =>
    have hrest : lexicon.lex " ();" =
        some [.sign (.char '('), .sign (.char ')'), .sign (.char ';')] := by decide +kernel
    have htext := Lexicon.lex_append_eq_some hopening hrest (Lexicon.apart_of_head (by decide))
    rw [TableDefinition.text, hd, List.isEmpty_nil, if_pos rfl, htext]
    simp
  | cons c cs =>
    have hparen : lexicon.lex (" (\n" ++ indent) = some [.sign (.char '(')] := by decide +kernel
    have hclosing : lexicon.lex "\n);" = some [.sign (.char ')'), .sign (.char ';')] := by
      decide +kernel
    have hstands : lexicon.Stands (" (\n" ++ indent) := by decide
    have hkey : ∀ p ∈ (keyText d.primaryKey).head?, p.is isWordChar = false := by
      cases d.primaryKey with
      | nil => decide
      | cons k ks =>
        intro p hp
        cases hp
        rfl
    have hcolumns := Lexicon.lex_append_eq_some hopening hparen
      (Lexicon.apart_of_head hstands.head)
    have hbody := Lexicon.lex_append_eq_some hcolumns (lex_columns h hd) hstands.append_apart
    have hkeyed := Lexicon.lex_append_eq_some hbody (lex_keyText h.key) (Lexicon.apart_of_head hkey)
    have htext := Lexicon.lex_append_eq_some hkeyed hclosing (Lexicon.apart_of_head (by decide))
    have hform : d.text = Text.ofString "CREATE TABLE IF NOT EXISTS " ++ quote d.name ++
        (" (\n" ++ indent) ++ joined (",\n" ++ indent) (d.columns.map ColumnDefinition.text) ++
        keyText d.primaryKey ++ "\n);" := by
      simp [TableDefinition.text, hd]
    rw [hform, htext]
    simp

theorem readTable_text (h : d.Legible) : readTable d.text = some d := by
  have hskip (xs : List Lexeme) : (createWords ++ xs).dropPrefix? createWords = some xs :=
    List.dropPrefix?_append_of_beq xs BEq.rfl
  rw [readTable, lex_tableText h]
  simp only [Option.bind_eq_bind, Option.bind_some, hskip]
  obtain ⟨name, columns, key⟩ := d
  cases columns with
  | nil =>
    obtain rfl : key = [] := h.keyed rfl
    simp
  | cons c cs =>
    have hitems := readItems_columns c cs key
    have hne : columnLexemes c ++ (cs.flatMap (fun d => .sign (.char ',') :: columnLexemes d) ++
        (keyLexemes key ++ [.sign (.char ')'), .sign (.char ';')])) ≠
          [.sign (.char ')'), .sign (.char ';')] := by
      intro he
      rw [he] at hitems
      cases hitems
    simp [hne, hitems]

end Texts

end Sql
end ApiScaffold
