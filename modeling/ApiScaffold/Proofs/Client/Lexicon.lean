import ApiScaffold.Proofs.Client.Declarations
import ApiScaffold.Proofs.Client.Expressions
import ApiScaffold.Proofs.Text.Infix
import ApiScaffold.Proofs.Text.Lexemes

namespace ApiScaffold
open Text

namespace Client
variable {name : Text} {optional : Bool} {stop : Char}

section Keys

/-- Client code: names, and texts between single quotes. -/
def lexicon : Lexicon where
  isPart := isNamePart
  quote := '\''
  unquote := readQuoted
  isPart_quote := by decide
  splits h := ⟨_, eq_of_readQuoted h⟩
  unquote_append more h := by
    rw [eq_of_readQuoted h, List.append_assoc]
    exact readQuoted_flatMapChars _ _

/-- What a key stands for: a bare one for the name that it spells. -/
def keyName? : Lexeme → Option Text
  | .word t => if IsIdentifier t then some t else none
  | .quoted t => some t
  | .sign _ => none

def readKey (t : Text) : Option Text :=
  match lexicon.lex t with
  | some [x] => keyName? x
  | _ => none

/-- A name and a line feed, which is taken for a name. -/
def EndsInFeed (name : Text) : Prop :=
  ∃ word, IsIdentifier word ∧ name = word ++ [.char '\n']

/-- Names that are written without quotes. -/
def IsBare (name : Text) : Prop :=
  IsIdentifier name ∨ EndsInFeed name

instance (name : Text) : Decidable (IsBare name) :=
  decidable_of_iff (isName name = true) isName_iff

theorem propertyKey_eq (name : Text) :
    propertyKey name = if IsBare name then name else literal name := by
  have hiff : isName name = true ↔ IsBare name := isName_iff
  simp only [propertyKey, hiff]

theorem member_eq (object name : Text) :
    member object name =
      if IsBare name then object ++ "." ++ name else object ++ "[" ++ literal name ++ "]" := by
  have hiff : isName name = true ↔ IsBare name := isName_iff
  simp only [member, hiff]

/-- How the key of a name is read. -/
def keyLexeme (name : Text) : Lexeme :=
  if isName name then .word (accessed name) else .quoted name

theorem lex_word (h : IsIdentifier name) : lexicon.lex name = some [.word name] :=
  Lexicon.lex_of_over h.word.1 h.word.2

theorem lex_literal (s : Text) : lexicon.lex (literal s) = some [.quoted s] := by
  have hread : lexicon.unquote (flatMapChars escapeChar s ++ [.char '\'']) = some (s, []) :=
    readQuoted_flatMapChars s []
  have hquoted := Lexicon.lex_quoted hread
  rw [Lexicon.lex_nil] at hquoted
  exact hquoted

theorem lex_name (h : isName name = true) : lexicon.lex name = some [.word (accessed name)] := by
  rcases isName_iff.mp h with hself | ⟨word, hword, rfl⟩
  · rw [accessed_of_isIdentifier hself]
    exact lex_word hself
  · have hfeed : lexicon.lex [.char '\n'] = some [] := by decide +kernel
    rw [accessed_lineFeed hword]
    exact Lexicon.lex_append_eq_some (lex_word hword) hfeed (Lexicon.apart_of_head (by decide))

theorem lex_propertyKey (name : Text) : lexicon.lex (propertyKey name) = some [keyLexeme name] := by
  unfold propertyKey keyLexeme
  split
  · exact lex_name ‹_›
  · exact lex_literal name

theorem keyName?_keyLexeme (name : Text) : keyName? (keyLexeme name) = some (accessed name) := by
  unfold keyLexeme
  split
  · rename_i hname
    rcases isName_iff.mp hname with hself | ⟨word, hword, rfl⟩
    · rw [accessed_of_isIdentifier hself]
      exact if_pos hself
    · rw [accessed_lineFeed hword]
      exact if_pos hword
  · rename_i hname
    rw [accessed_of_not_isName (Bool.eq_false_iff.mpr hname)]
    rfl

theorem readKey_propertyKey (name : Text) : readKey (propertyKey name) = some (accessed name) := by
  rw [readKey, lex_propertyKey]
  exact keyName?_keyLexeme name

theorem accessed_eq_self_iff_not : accessed name = name ↔ ¬ EndsInFeed name := by
  rw [accessed_eq_self_iff, EndsInFeed, not_exists]
  simp only [not_and]

/-- Two names are read as one where a line feed is all that they differ in. -/
theorem accessed_eq_iff {a b : Text} :
    accessed a = accessed b ↔
      a = b ∨ (IsIdentifier a ∧ b = a ++ [.char '\n']) ∨
        (IsIdentifier b ∧ a = b ++ [.char '\n']) := by
  constructor
  · intro h
    by_cases ha : EndsInFeed a
    · obtain ⟨word, hword, rfl⟩ := ha
      rw [accessed_lineFeed hword] at h
      by_cases hb : EndsInFeed b
      · obtain ⟨other, hother, rfl⟩ := hb
        rw [accessed_lineFeed hother] at h
        exact .inl (congrArg (· ++ _) h)
      · rw [accessed_eq_self_iff_not.mpr hb] at h
        subst h
        exact .inr (.inr ⟨hword, rfl⟩)
    · rw [accessed_eq_self_iff_not.mpr ha] at h
      by_cases hb : EndsInFeed b
      · obtain ⟨other, hother, rfl⟩ := hb
        rw [accessed_lineFeed hother] at h
        subst h
        exact .inr (.inl ⟨hother, rfl⟩)
      · rw [accessed_eq_self_iff_not.mpr hb] at h
        exact .inl h
  · rintro (rfl | ⟨ha, rfl⟩ | ⟨hb, rfl⟩)
    · rfl
    · rw [accessed_of_isIdentifier ha, accessed_lineFeed ha]
    · rw [accessed_of_isIdentifier hb, accessed_lineFeed hb]

theorem readKey_literal (s : Text) : readKey (literal s) = some s := by
  rw [readKey, lex_literal]
  rfl

end Keys

section Members

/-- The signs that a value goes as far as. -/
def closings (stop : Char) : List Lexeme :=
  [.sign (.char stop), .sign (.char '}')]

/-- What comes next between braces. -/
inductive Place where
  | key
  | mark
  | colon
  | value

/-- The keys of members, up to the brace that ends them and the text. -/
def readKeys (stop : Char) : Place → List Lexeme → Option (List Text)
  | _, [] => none
  | .key, x :: rest =>
    if x = .sign (.char '}') then if rest = [] then some [] else none
    else
      match keyName? x with
      | some name => (readKeys stop .mark rest).map (name :: ·)
      | none => none
  | .mark, x :: rest =>
    if x = .sign (.char '?') then readKeys stop .colon rest
    else if x = .sign (.char ':') then readKeys stop .value rest
    else none
  | .colon, x :: rest => if x = .sign (.char ':') then readKeys stop .value rest else none
  | .value, x :: rest =>
    if x = .sign (.char '}') then if rest = [] then some [] else none
    else readKeys stop (if x = .sign (.char stop) then .key else .value) rest

variable {value rest : List Lexeme}

theorem readKeys_value (h : Free (closings stop) value) (rest : List Lexeme) :
    readKeys stop .value (value ++ rest) = readKeys stop .value rest := by
  induction value with
  | nil => rfl
  | cons x value ih =>
    have hx := h x List.mem_cons_self
    simp only [closings, List.mem_cons, List.not_mem_nil, or_false, not_or] at hx
    rw [List.cons_append, readKeys, if_neg hx.2, if_neg hx.1]
    exact ih fun y hy => h y (List.mem_cons_of_mem _ hy)

theorem readKeys_stop (h : stop ≠ '}') (rest : List Lexeme) :
    readKeys stop .value (.sign (.char stop) :: rest) = readKeys stop .key rest := by
  rw [readKeys, if_neg (by simpa using h), if_pos rfl]

theorem readKeys_end : readKeys stop .key [.sign (.char '}')] = some [] ∧
    readKeys stop .value [.sign (.char '}')] = some [] :=
  ⟨rfl, rfl⟩

/-- A member as it is read. -/
def memberLexemes (name : Text) (optional : Bool) (value : List Lexeme) : List Lexeme :=
  keyLexeme name :: ((if optional then [.sign (.char '?')] else []) ++ .sign (.char ':') :: value)

theorem readKeys_member (h : Free (closings stop) value) (rest : List Lexeme) :
    readKeys stop .key (memberLexemes name optional value ++ rest) =
      (readKeys stop .value rest).map (accessed name :: ·) := by
  have hkey := keyName?_keyLexeme name
  have hbrace : keyLexeme name ≠ .sign (.char '}') := by
    intro he
    rw [he] at hkey
    cases hkey
  cases optional <;> simp [memberLexemes, readKeys, hbrace, hkey, readKeys_value h]

end Members

section Interfaces
variable {fields : List Field}

/-- The name of an interface and its keys. -/
def readInterface (t : Text) : Option (Text × List Text) :=
  match lexicon.lex t with
  | some (.word first :: .word second :: .word name :: .sign (.char '{') :: rest) =>
    if first = Text.ofString "export" ∧ second = Text.ofString "interface" then
      (readKeys ';' .key rest).map (name, ·)
    else none
  | _ => none

/-- The type is read as code that ends no member. -/
structure IsPlain (type : Text) (xs : List Lexeme) : Prop where
  lex : lexicon.lex type = some xs
  free : Free (closings ';') xs

theorem isPlain_expression {p : Text → Prop} {x : Text} (h : DataType.Expression p x) :
    ∃ xs, IsPlain x xs := by
  induction h with
  | builtIn h =>
    have hall : ∀ x ∈ DataType.builtIn,
        (lexicon.lex x).any (fun xs => decide (Free (closings ';') xs)) = true := by
      decide +kernel
    obtain ⟨xs, hlex, hfree⟩ := (Option.any_eq_true _ _).mp (hall _ h)
    exact ⟨xs, hlex, of_decide_eq_true hfree⟩
  | interface hp hne =>
    have hover := (isWord_of_over hne (Identifier.over_clean (by decide))).2
    refine ⟨_, Lexicon.lex_of_over hne hover, ?_⟩
    simp [Free, closings]
  | array _ ih =>
    obtain ⟨xs, hlex, hfree⟩ := ih
    have hmark : lexicon.lex "[]" = some [.sign (.char '['), .sign (.char ']')] := by
      decide +kernel
    refine ⟨_, Lexicon.lex_append_eq_some hlex hmark (Lexicon.apart_of_head (by decide)), ?_⟩
    exact hfree.append (by decide)

/-- A member with its type as it is read. -/
def Field.lexemes (f : Field) : List Lexeme :=
  memberLexemes f.name (!f.required) ((lexicon.lex f.type).getD []) ++ [.sign (.char ';')]

theorem lex_fieldCode {f : Field} {xs : List Lexeme} (h : IsPlain f.type xs) :
    lexicon.lex f.code = some f.lexemes := by
  have hcolon : lexicon.lex ": " = some [.sign (.char ':')] := by decide +kernel
  have hend : lexicon.lex ";" = some [.sign (.char ';')] := by decide +kernel
  let mark : Text := Text.ofString (if f.required then "" else "?")
  have hmark : lexicon.lex mark = some (if !f.required then [.sign (.char '?')] else []) := by
    cases hr : f.required <;> simp only [mark, hr] <;> decide +kernel
  have hopens : ∀ p ∈ mark.head?, p.is isNamePart = false := by
    cases hr : f.required <;> simp only [mark, hr] <;> decide
  have hkey := Lexicon.lex_append_eq_some (lex_propertyKey f.name) hmark
    (Lexicon.apart_of_head hopens)
  have hleft := Lexicon.lex_append_eq_some hkey hcolon (Lexicon.apart_of_head (by decide))
  have hstands : lexicon.Stands ": " := by decide
  have hmember := Lexicon.lex_append_eq_some hleft h.lex hstands.append_apart
  have hcode := Lexicon.lex_append_eq_some hmember hend (Lexicon.apart_of_head (by decide))
  rw [Field.code, hcode, Field.lexemes, memberLexemes, h.lex]
  simp

theorem readKeys_fields (h : ∀ f ∈ fields, ∃ xs, IsPlain f.type xs) :
    readKeys ';' .key (fields.flatMap Field.lexemes ++ [.sign (.char '}')]) =
      some (fields.map fun f => accessed f.name) := by
  induction fields with
  | nil => exact readKeys_end.1
  | cons f fields ih =>
    obtain ⟨xs, hlex, hfree⟩ := h f List.mem_cons_self
    have hrest := ih fun g hg => h g (List.mem_cons_of_mem _ hg)
    have htype : (lexicon.lex f.type).getD [] = xs := by rw [hlex]; rfl
    rw [List.flatMap_cons, Field.lexemes, htype, List.append_assoc, List.append_assoc,
      readKeys_member hfree, List.singleton_append, readKeys_stop (by decide), hrest]
    rfl

/-- The lines of an interface. -/
def interfaceLines (name : Text) (fields : List Field) : List Text :=
  ("export interface " ++ name ++ " \x7b") ::
    (fields.map (Code.indent 1 ++ ·.code) ++ [Text.ofString "\x7d"])

theorem readInterface_lines (hname : IsWord name) (h : ∀ f ∈ fields, ∃ xs, IsPlain f.type xs) :
    readInterface (joined "\n" (interfaceLines name fields)) =
      some (name, fields.map fun f => accessed f.name) := by
  have hopening : lexicon.lex "export interface " = some [.word "export", .word "interface"] := by
    decide +kernel
  have hbrace : lexicon.lex " \x7b" = some [.sign (.char '{')] := by decide +kernel
  have hend : lexicon.lex "\x7d" = some [.sign (.char '}')] := by decide +kernel
  have hbreak : lexicon.lex "\n" = some [] := by decide +kernel
  have hstands : lexicon.Stands "\n" := by decide
  have hfirst : lexicon.lex ("export interface " ++ name ++ " \x7b") =
      some [.word "export", .word "interface", .word name, .sign (.char '{')] :=
    Lexicon.lex_append_eq_some
      (Lexicon.lex_append_eq_some hopening (Lexicon.lex_of_over hname.1 hname.2)
        (Lexicon.apart_of_getLast (by decide)))
      hbrace (Lexicon.apart_of_head (by decide))
  have hfields : List.Forall₂ (fun t xs => lexicon.lex t = some xs)
      (fields.map (Code.indent 1 ++ ·.code)) (fields.map Field.lexemes) := by
    rw [List.forall₂_map_left_iff, List.forall₂_map_right_iff, List.forall₂_same]
    intro f hf
    obtain ⟨xs, hplain⟩ := h f hf
    have hblank (t : Text) : lexicon.lex (.char ' ' :: t) = lexicon.lex t :=
      Lexicon.lex_blank (by decide) (by decide) (by decide) t
    have hindent : lexicon.lex (Code.indent 1 ++ f.code) = lexicon.lex f.code :=
      (hblank _).trans (hblank _)
    rw [hindent, lex_fieldCode hplain]
  have hlines := Lexicon.lex_joined hbreak hstands
    (.cons hfirst (List.rel_append hfields (.cons hend .nil)))
  rw [nil_intercalate] at hlines
  rw [readInterface, interfaceLines, hlines]
  simp only [List.flatten_cons, List.flatten_append, List.flatten_nil, List.append_nil,
    ← List.flatMap_def, List.cons_append, List.nil_append, and_self, if_true, readKeys_fields h,
    Option.map_some]

end Interfaces

section Tables

/-- A column as a member. -/
def columnField (c : Column) : Field :=
  ⟨c.name, c.type.client, !c.nullable⟩

theorem code_columnField (c : Column) : (columnField c).code = columnText c := by
  cases hn : c.nullable <;> simp [columnField, Field.code, columnText, hn]

theorem interfaceText_eq_lines (t : Table) :
    interfaceText t =
      joined "\n" (interfaceLines (Identifier.ofTable t.name) (t.columns.map columnField)) := by
  rw [interfaceText_eq, interfaceLines, List.map_map]
  simp only [Function.comp_def, code_columnField]
  rfl

theorem readInterface_interfaceText (t : Table) :
    readInterface (interfaceText t) =
      some (Identifier.ofTable t.name, t.columns.map fun c => accessed c.name) := by
  have hplain : ∀ f ∈ t.columns.map columnField, ∃ xs, IsPlain f.type xs := by
    intro f hf
    obtain ⟨c, -, rfl⟩ := List.mem_map.mp hf
    exact isPlain_expression c.type.expression_client
  rw [interfaceText_eq_lines, readInterface_lines (isWord_ofTable t.name) hplain, List.map_map]
  rfl

theorem typesModule_read (tables : List Table) :
    tables = [] ∨ ∃ parts, typesModule tables = joined "\n\n" parts ∧
      parts.map readInterface = tables.map fun t =>
        some (Identifier.ofTable t.name, t.columns.map fun c => accessed c.name) := by
  by_cases h : tables = []
  · exact .inl h
  · refine .inr ⟨tables.map interfaceText, ?_, ?_⟩
    · rw [typesModule, if_neg (by simpa using h)]
    · rw [List.map_map]
      exact List.map_congr_left fun t _ => readInterface_interfaceText t

end Tables

section Objects

/-- The keys of an object. -/
def readObject (t : Text) : Option (List Text) :=
  match lexicon.lex t with
  | some (.sign (.char '{') :: rest) => readKeys ',' .key rest
  | _ => none

/-- How a member of the parameters is read. -/
def valueLexemes (name : Text) : List Lexeme :=
  .word "params" ::
    if isName name then [.sign (.char '.'), .word (accessed name)]
    else [.sign (.char '['), .quoted name, .sign (.char ']')]

theorem lex_member (name : Text) :
    lexicon.lex (member "params" name) = some (valueLexemes name) := by
  have hparams : lexicon.lex "params" = some [.word "params"] := by decide +kernel
  unfold member valueLexemes
  split
  · have hdot : lexicon.lex "." = some [.sign (.char '.')] := by decide +kernel
    have hstands : lexicon.Stands "." := by decide
    have hopening := Lexicon.lex_append_eq_some hparams hdot (Lexicon.apart_of_head (by decide))
    exact Lexicon.lex_append_eq_some hopening (lex_name ‹_›) hstands.append_apart
  · have hleft : lexicon.lex "[" = some [.sign (.char '[')] := by decide +kernel
    have hright : lexicon.lex "]" = some [.sign (.char ']')] := by decide +kernel
    have hstands : lexicon.Stands "[" := by decide
    have hopening := Lexicon.lex_append_eq_some hparams hleft (Lexicon.apart_of_head (by decide))
    have hinner := Lexicon.lex_append_eq_some hopening (lex_literal name) hstands.append_apart
    exact Lexicon.lex_append_eq_some hinner hright (Lexicon.apart_of_head (by decide))

theorem free_valueLexemes (name : Text) : Free (closings ',') (valueLexemes name) := by
  unfold valueLexemes
  split <;> simp [Free, closings]

theorem lex_entry (name : Text) :
    lexicon.lex (propertyKey name ++ ": " ++ member "params" name) =
      some (memberLexemes name false (valueLexemes name)) := by
  have hcolon : lexicon.lex ": " = some [.sign (.char ':')] := by decide +kernel
  have hstands : lexicon.Stands ": " := by decide
  have hkey := Lexicon.lex_append_eq_some (lex_propertyKey name) hcolon
    (Lexicon.apart_of_head (by decide))
  exact Lexicon.lex_append_eq_some hkey (lex_member name) hstands.append_apart

theorem readKeys_entries (names : List Text) :
    readKeys ',' .value
        (names.flatMap (fun name =>
          [.sign (.char ',')] ++ memberLexemes name false (valueLexemes name)) ++
        [.sign (.char '}')]) =
      some (names.map accessed) := by
  induction names with
  | nil => exact readKeys_end.2
  | cons name names ih =>
    rw [List.flatMap_cons, List.append_assoc, List.append_assoc, List.singleton_append,
      readKeys_stop (by decide), readKeys_member (free_valueLexemes name), ih]
    rfl

/-- The object that the query string is made from. -/
def queryObject (names : List Text) : Text :=
  objectLiteral (names.map fun name => (name, (Value.param name).code))

theorem lex_queryObject (name : Text) (names : List Text) :
    lexicon.lex (queryObject (name :: names)) =
      some (.sign (.char '{') :: (memberLexemes name false (valueLexemes name) ++
        (names.flatMap (fun name =>
          [.sign (.char ',')] ++ memberLexemes name false (valueLexemes name)) ++
        [.sign (.char '}')]))) := by
  have hopening : lexicon.lex "\x7b " = some [.sign (.char '{')] := by decide +kernel
  have hcomma : lexicon.lex ", " = some [.sign (.char ',')] := by decide +kernel
  have hclosing : lexicon.lex " \x7d" = some [.sign (.char '}')] := by decide +kernel
  have hstands : lexicon.Stands "\x7b " ∧ lexicon.Stands ", " := by decide
  have hlist : lexicon.lex (joined ", " ((name :: names).map fun name =>
      propertyKey name ++ ": " ++ member "params" name)) =
        some (memberLexemes name false (valueLexemes name) ++ names.flatMap fun name =>
          [.sign (.char ',')] ++ memberLexemes name false (valueLexemes name)) :=
    Lexicon.lex_joined_map hcomma hstands.2 fun name _ => lex_entry name
  have hobject := Lexicon.lex_append_eq_some
    (Lexicon.lex_append_eq_some hopening hlist hstands.1.apart) hclosing
    (Lexicon.apart_of_head (by decide))
  have htext : queryObject (name :: names) =
      "\x7b " ++ joined ", " ((name :: names).map fun name =>
        propertyKey name ++ ": " ++ member "params" name) ++ " \x7d" := by
    simp [queryObject, objectLiteral, Value.code, Function.comp_def]
  rw [htext, hobject]
  simp

theorem readObject_queryObject (names : List Text) :
    readObject (queryObject names) = some (names.map accessed) := by
  cases names with
  | nil => decide +kernel
  | cons name names =>
    rw [readObject, lex_queryObject]
    simp only [readKeys_member (free_valueLexemes name), readKeys_entries]
    rfl

end Objects

end Client
end ApiScaffold
