import ApiScaffold.Proofs.Sql.Lexicon

namespace ApiScaffold
open Text

namespace Sql

section Reader

/-- The arguments of a function, up to the parenthesis that ends them and the line. -/
def readArguments : List Lexeme → Option (List Typed)
  | [x, .word type, .sign (.char ')')] => (nameOf? x).map fun name => [⟨name, type⟩]
  | x :: .word type :: .sign (.char ',') :: rest => do
    let name ← nameOf? x
    let more ← readArguments rest
    some (⟨name, type⟩ :: more)
  | _ => none

/-- The words that a function opens with. -/
def functionWords : List Lexeme :=
  ["CREATE", "OR", "REPLACE", "FUNCTION"].map fun s => .word (Text.ofString s)

/-- The arguments that the first line of a function declares. -/
def readSignature (line : Text) : Option (List Typed) := do
  let xs ← lexicon.lex line
  match xs.dropPrefix? functionWords with
  | some (x :: .sign (.char '(') :: rest) => do
    let _ ← nameOf? x
    if rest = [.sign (.char ')')] then some [] else readArguments rest
  | _ => none

/-- The predicates of a filter, as far as it goes, and what follows it. -/
def readPredicates : List Lexeme → Option (List Predicate × List Lexeme)
  | x :: .sign (.char '=') :: y :: .word w :: rest => do
    let column ← nameOf? x
    let argument ← nameOf? y
    if w = Text.ofString "AND" then
      (readPredicates rest).map (.map (⟨column, argument⟩ :: ·) id)
    else some ([⟨column, argument⟩], .word w :: rest)
  | x :: .sign (.char '=') :: y :: rest => do
    let column ← nameOf? x
    let argument ← nameOf? y
    some ([⟨column, argument⟩], rest)
  | _ => none

/-- What a statement may end with behind its filter. -/
def statementEnds : List (List Lexeme) :=
  [[.sign (.char ';')], [.word "RETURNING", .sign (.char '*'), .sign (.char ';')]]

/-- The predicates that a statement picks out rows by; without the clause there are none. -/
def readFilter (line : Text) : Option (List Predicate) := do
  let xs ← lexicon.lex line
  match xs.dropWhile (· ≠ .word "WHERE") with
  | [] => some []
  | _ :: clause => do
    let (ps, rest) ← readPredicates clause
    if rest ∈ statementEnds then some ps else none

/-- The predicates of a comment that names the rows to change, if the line is one. -/
def readTarget (line : Text) : Option (List Predicate) := do
  let clause ← line.dropPrefix? "  -- Target rows: "
  let xs ← lexicon.lex clause
  match xs with
  | .word w :: rest => do
    let (ps, rest) ← readPredicates rest
    if w = Text.ofString "WHERE" ∧ rest = [] then some ps else none
  | _ => none

/-- The predicates that a method picks out rows by, off its statement or off the comment that
stands for one. -/
def readRows : Method → Text → Option (List Predicate)
  | .get | .delete => readFilter
  | .put | .patch => readTarget
  | .post | .head | .options | .trace => fun _ => none

end Reader

section Arguments
variable {a : Typed} {as : List Typed}

def typedLexemes (a : Typed) : List Lexeme :=
  [nameLexeme a.name, .word a.type]

theorem readArguments_lexemes (a : Typed) (as : List Typed) :
    readArguments (typedLexemes a ++ (as.flatMap (fun b => .sign (.char ',') :: typedLexemes b) ++
      [.sign (.char ')')])) = some (a :: as) := by
  induction as generalizing a with
  | nil => simp [typedLexemes, readArguments]
  | cons next as ih =>
    have hrest := ih next
    simp only [typedLexemes, List.flatMap_cons, List.cons_append, List.nil_append] at hrest ⊢
    simp [readArguments, hrest]

/-- Names and types that can be read. -/
def Typed.Legible (a : Typed) : Prop :=
  Identifier.IsName a.name ∧ IsTypeWord a.type

theorem lex_arguments (h : ∀ b ∈ a :: as, b.Legible) :
    lexicon.lex (joined ", " ((a :: as).map Typed.text)) =
      some (typedLexemes a ++ as.flatMap fun b => .sign (.char ',') :: typedLexemes b) :=
  lex_joined_comma fun b hb => lex_typed (h b hb).1 (h b hb).2

/-- The line that a function opens with. -/
theorem readSignature_line {name : Text} (hname : Identifier.IsName name)
    (h : ∀ a ∈ as, a.Legible) :
    readSignature ("CREATE OR REPLACE FUNCTION " ++ quote name ++ "(" ++
      joined ", " (as.map Typed.text) ++ ")") = some as := by
  have hskip (xs : List Lexeme) : (functionWords ++ xs).dropPrefix? functionWords = some xs :=
    List.dropPrefix?_append_of_beq xs BEq.rfl
  have hwords : lexicon.lex "CREATE OR REPLACE FUNCTION " = some functionWords := by decide +kernel
  have hleft : lexicon.lex "(" = some [.sign (.char '(')] := by decide +kernel
  have hright : lexicon.lex ")" = some [.sign (.char ')')] := by decide +kernel
  have hstands : lexicon.Stands "(" := by decide
  have hopening := Lexicon.lex_append_eq_some
    (Lexicon.lex_append_eq_some hwords (lex_quote hname) (Lexicon.apart_of_getLast (by decide)))
    hleft (Lexicon.apart_of_head hstands.head)
  cases as with
  | nil =>
    have hline := Lexicon.lex_append_eq_some
      (Lexicon.lex_append_eq_some hopening Lexicon.lex_nil hstands.append_apart) hright
      (Lexicon.apart_of_head (by decide))
    rw [readSignature, List.map_nil, joined, List.intercalate_nil, hline]
    simp [hskip]
  | cons a as =>
    have hitems := readArguments_lexemes a as
    have hline := Lexicon.lex_append_eq_some
      (Lexicon.lex_append_eq_some hopening (lex_arguments h) hstands.append_apart) hright
      (Lexicon.apart_of_head (by decide))
    have hne : typedLexemes a ++ (as.flatMap (fun b => .sign (.char ',') :: typedLexemes b) ++
        [.sign (.char ')')]) ≠ [.sign (.char ')')] := by
      intro he
      rw [he] at hitems
      cases hitems
    rw [readSignature, hline]
    simp [hskip, hne, hitems]

end Arguments

section Filters
variable {p : Predicate} {ps : List Predicate} {rest : List Lexeme} {table : Text}

/-- Names that can be read. -/
def Predicate.Legible (p : Predicate) : Prop :=
  Identifier.IsName p.column ∧ Identifier.IsName p.argument

def predicateLexemes (p : Predicate) : List Lexeme :=
  [nameLexeme p.column, .sign (.char '='), nameLexeme p.argument]

/-- What no predicate goes on with. -/
def IsEnd (rest : List Lexeme) : Prop :=
  ∀ x ∈ rest.head?, x ≠ .word "AND"

theorem readPredicates_last (h : IsEnd rest) (p : Predicate) :
    readPredicates (predicateLexemes p ++ rest) = some ([p], rest) := by
  cases rest with
  | nil => simp [predicateLexemes, readPredicates]
  | cons x rest =>
    cases x with
    | word w =>
      have hand : w ≠ Text.ofString "AND" := fun he => h _ rfl (congrArg Lexeme.word he)
      simp [predicateLexemes, readPredicates, hand]
    | quoted t => simp [predicateLexemes, readPredicates]
    | sign c => simp [predicateLexemes, readPredicates]

theorem readPredicates_lexemes (h : IsEnd rest) (p : Predicate) (ps : List Predicate) :
    readPredicates (predicateLexemes p ++
      (ps.flatMap (fun q => .word "AND" :: predicateLexemes q) ++ rest)) =
        some (p :: ps, rest) := by
  induction ps generalizing p with
  | nil => exact readPredicates_last h p
  | cons next ps ih =>
    have hrest := ih next
    simp only [predicateLexemes, List.flatMap_cons, List.cons_append, List.nil_append] at hrest ⊢
    simp [readPredicates, hrest]

theorem lex_predicate (h : p.Legible) : lexicon.lex p.text = some (predicateLexemes p) := by
  have hequals : lexicon.lex " = " = some [.sign (.char '=')] := by decide +kernel
  have hstands : lexicon.Stands " = " := by decide
  exact Lexicon.lex_append_eq_some
    (Lexicon.lex_append_eq_some (lex_quote h.1) hequals (Lexicon.apart_of_head hstands.head))
    (lex_quote h.2) hstands.append_apart

theorem lex_conjunction (h : ∀ q ∈ p :: ps, q.Legible) :
    lexicon.lex (conjunction (p :: ps)) =
      some (predicateLexemes p ++ ps.flatMap fun q => .word "AND" :: predicateLexemes q) := by
  have hand : lexicon.lex " AND " = some [.word "AND"] := by decide +kernel
  have hstands : lexicon.Stands " AND " := by decide
  exact Lexicon.lex_joined_map hand hstands fun q hq => lex_predicate (h q hq)

/-- A filter as it is read. -/
def filterLexemes : List Predicate → List Lexeme
  | [] => []
  | p :: ps =>
    .word "WHERE" :: (predicateLexemes p ++ ps.flatMap fun q => .word "AND" :: predicateLexemes q)

theorem lex_filterText (h : ∀ q ∈ ps, q.Legible) :
    lexicon.lex (filterText ps) = some (filterLexemes ps) := by
  cases ps with
  | nil => exact Lexicon.lex_nil
  | cons p ps =>
    have hwhere : lexicon.lex " WHERE " = some [.word "WHERE"] := by decide +kernel
    have hstands : lexicon.Stands " WHERE " := by decide
    exact Lexicon.lex_append_eq_some hwhere (lex_conjunction h) hstands.apart

/-- A bare keyword is no name. -/
theorem nameLexeme_ne_word {w : Text} (h : isKeyword w = true) (name : Text) :
    nameLexeme name ≠ .word w := by
  unfold nameLexeme
  split
  · simp
  · rename_i hname
    rintro ⟨⟩
    exact hname h

theorem isEnd_of_mem_statementEnds (h : rest ∈ statementEnds) :
    IsEnd rest ∧ .word (Text.ofString "WHERE") ∉ rest := by
  have hall : ∀ xs ∈ statementEnds,
      (∀ x ∈ xs.head?, x ≠ .word "AND") ∧ .word (Text.ofString "WHERE") ∉ xs := by
    decide
  exact hall rest h

/-- The clause is found where no word in front of it is its own. -/
theorem readFilter_of_lex {line : Text} {before : List Lexeme} (hend : rest ∈ statementEnds)
    (hbefore : .word (Text.ofString "WHERE") ∉ before)
    (hline : lexicon.lex line = some (before ++ (filterLexemes ps ++ rest))) :
    readFilter line = some ps := by
  obtain ⟨hisEnd, hrest⟩ := isEnd_of_mem_statementEnds hend
  have hskip (xs : List Lexeme) : (before ++ xs).dropWhile (· ≠ .word "WHERE") =
      xs.dropWhile (· ≠ .word "WHERE") :=
    List.dropWhile_append_of_pos fun x hx => by simpa using ne_of_mem_of_not_mem hx hbefore
  rw [readFilter, hline]
  simp only [Option.bind_eq_bind, Option.bind_some, hskip]
  cases ps with
  | nil =>
    have hnone : rest.dropWhile (· ≠ .word "WHERE") = [] :=
      List.dropWhile_eq_nil_iff.mpr fun x hx => by simpa using ne_of_mem_of_not_mem hx hrest
    rw [filterLexemes, List.nil_append, hnone]
  | cons p ps =>
    rw [filterLexemes, List.cons_append, List.dropWhile_cons_of_neg (by simp), List.append_assoc]
    simp only [readPredicates_lexemes hisEnd, Option.bind_some, if_pos hend]

theorem readFilter_statement {opening ending : Text} {words : List Lexeme}
    (hopening : lexicon.lex opening = some words)
    (hopens : ∀ p ∈ opening.getLast?, p.is isWordChar = false)
    (hwords : .word (Text.ofString "WHERE") ∉ words) (hending : lexicon.lex ending = some rest)
    (hends : ∀ p ∈ ending.head?, p.is isWordChar = false) (hrest : rest ∈ statementEnds)
    (htable : Identifier.IsName table) (hps : ∀ q ∈ ps, q.Legible) :
    readFilter (indent ++ (opening ++ quote table ++ filterText ps ++ ending)) = some ps := by
  have hblank (t : Text) : lexicon.lex (.char ' ' :: t) = lexicon.lex t :=
    Lexicon.lex_blank (by decide) (by decide) (by decide) t
  have hfilter : ∀ p ∈ (filterText ps).head?, p.is isWordChar = false := by
    cases ps with
    | nil => decide
    | cons p ps =>
      intro q hq
      cases hq
      rfl
  have hline := Lexicon.lex_append_eq_some
    (Lexicon.lex_append_eq_some
      (Lexicon.lex_append_eq_some hopening (lex_quote htable) (Lexicon.apart_of_getLast hopens))
      (lex_filterText hps) (Lexicon.apart_of_head hfilter))
    hending (Lexicon.apart_of_head hends)
  have hbefore : .word (Text.ofString "WHERE") ∉ words ++ [nameLexeme table] := by
    have hname := nameLexeme_ne_word (w := "WHERE") (by decide) table
    simp [hwords, hname.symm]
  refine readFilter_of_lex hrest hbefore ?_
  calc lexicon.lex (indent ++ (opening ++ quote table ++ filterText ps ++ ending))
      = lexicon.lex (opening ++ quote table ++ filterText ps ++ ending) :=
        (hblank _).trans (hblank _)
    _ = _ := by rw [hline, List.append_assoc (words ++ _)]

end Filters

section Targets
variable {p : Predicate} {ps : List Predicate} {rest : List Lexeme}

theorem readTarget_conjunction (h : ∀ q ∈ p :: ps, q.Legible) :
    readTarget ("  -- Target rows: " ++ ("WHERE " ++ conjunction (p :: ps))) = some (p :: ps) := by
  have hwhere : lexicon.lex "WHERE " = some [.word "WHERE"] := by decide +kernel
  have hclause := Lexicon.lex_append_eq_some hwhere (lex_conjunction h)
    (Lexicon.apart_of_getLast (by decide))
  have hnil : IsEnd [] := fun x hx => by cases hx
  have hread := readPredicates_lexemes hnil p ps
  rw [List.append_nil] at hread
  rw [readTarget, List.dropPrefix?_append_of_beq _ BEq.rfl]
  simp only [Option.bind_eq_bind, Option.bind_some, hclause, List.singleton_append, hread]
  simp

/-- What is read to the end ends in a name. -/
theorem getLast?_of_readPredicates {xs : List Lexeme} (h : readPredicates xs = some (ps, [])) :
    ∃ y ∈ xs.getLast?, (nameOf? y).isSome = true := by
  fun_induction readPredicates xs generalizing ps with
  | case1 x y w rest ih =>
    obtain ⟨column, -, h⟩ := Option.bind_eq_some_iff.mp h
    obtain ⟨argument, -, h⟩ := Option.bind_eq_some_iff.mp h
    split at h
    · obtain ⟨⟨qs, more⟩, hrest, he⟩ := Option.map_eq_some_iff.mp h
      cases he
      obtain ⟨z, hz, hname⟩ := ih hrest
      have hlast : (x :: .sign (.char '=') :: y :: .word w :: rest).getLast? = some z :=
        Lexicon.getLast?_cons_of_eq_some (Lexicon.getLast?_cons_of_eq_some
          (Lexicon.getLast?_cons_of_eq_some (Lexicon.getLast?_cons_of_eq_some hz)))
      exact ⟨z, hlast, hname⟩
    · cases h
  | case2 x y rest _ =>
    obtain ⟨column, -, h⟩ := Option.bind_eq_some_iff.mp h
    obtain ⟨argument, hy, h⟩ := Option.bind_eq_some_iff.mp h
    cases h
    exact ⟨y, rfl, by rw [hy]; rfl⟩
  | case3 => cases h

/-- A sentence is none. -/
theorem readTarget_eq_none {line : Text} (h : line.getLast? = some (.char '.')) :
    readTarget line = none := by
  rw [Option.eq_none_iff_forall_ne_some]
  intro ps hps
  obtain ⟨clause, hclause, hps⟩ := Option.bind_eq_some_iff.mp hps
  obtain ⟨xs, hxs, hread⟩ := Option.bind_eq_some_iff.mp hps
  obtain ⟨opening, rfl, hopening⟩ := List.dropPrefix?_eq_some_iff.mp hclause
  obtain rfl := eq_of_beq hopening
  have hdot : clause.getLast? = some (.char '.') :=
    Lexicon.getLast?_of_append h (by decide)
  have hlast : xs.getLast? = some (.sign (.char '.')) :=
    Lexicon.getLast?_of_lex (by decide) (by decide) (by decide) hxs hdot
  split at hread
  · rename_i w rest
    obtain ⟨⟨qs, more⟩, hpredicates, hread⟩ := Option.bind_eq_some_iff.mp hread
    dsimp only at hread
    split at hread
    · rename_i hend
      obtain ⟨-, rfl⟩ := hend
      obtain ⟨y, hy, hname⟩ := getLast?_of_readPredicates hpredicates
      have hword : (Lexeme.word w :: rest).getLast? = some y :=
        Lexicon.getLast?_cons_of_eq_some hy
      rw [hword] at hlast
      cases hlast
      cases hname
    · cases hread
  · cases hread

end Targets

end Sql
end ApiScaffold
