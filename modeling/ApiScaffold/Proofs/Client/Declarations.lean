import ApiScaffold.Client.Module
import ApiScaffold.Proofs.Client.HookScope
import ApiScaffold.Proofs.Client.Identifiers
import ApiScaffold.Proofs.DataType.Mentions
import ApiScaffold.Proofs.Text.Pieces

namespace ApiScaffold
open Text

namespace Client
variable {s t : Text} {name : Text}

/-- The names that a text declares, read line by line. -/
def declaredIn (text : Text) : List Text :=
  (pieces (.char '\n') text).flatMap boundBy

theorem declaredIn_append_cons (s t : Text) :
    declaredIn (s ++ .char '\n' :: t) = declaredIn s ++ declaredIn t := by
  rw [declaredIn, pieces_append_cons, List.flatMap_append]
  rfl

theorem declaredIn_line (h : .char '\n' ∉ t) : declaredIn t = boundBy t := by
  have hone : pieces (.char '\n') (([.char '\n'] : Text).intercalate [t]) = [t] :=
    pieces_joined (by simpa using h) (by simp)
  rw [List.intercalate_singleton] at hone
  rw [declaredIn, hone, List.flatMap_singleton]

theorem declaredIn_lines {lines : List Text} (hne : lines ≠ []) :
    declaredIn (joined "\n" lines) = lines.flatMap declaredIn := by
  induction lines with
  | nil => exact absurd rfl hne
  | cons line rest ih =>
    cases rest with
    | nil => simp [joined]
    | cons next rest =>
      rw [List.flatMap_cons, ← ih (by simp), ← declaredIn_append_cons, joined,
        List.intercalate_cons_cons, joined]
      simp [ofString, ofChars]

/-- Parts with an empty line between them declare what each of them does. -/
theorem declaredIn_parts {parts : List Text} (hne : parts ≠ []) :
    declaredIn (joined "\n\n" parts) = parts.flatMap declaredIn := by
  have hempty : declaredIn [] = [] := by decide
  induction parts with
  | nil => exact absurd rfl hne
  | cons part rest ih =>
    cases rest with
    | nil => simp [joined]
    | cons next rest =>
      have hgap : part ++ ofString "\n\n" ++ joined "\n\n" (next :: rest) =
          part ++ .char '\n' :: ([] ++ .char '\n' :: joined "\n\n" (next :: rest)) := by
        simp [ofString, ofChars]
      rw [List.flatMap_cons, ← ih (by simp), joined, List.intercalate_cons_cons, ← joined, hgap,
        declaredIn_append_cons, declaredIn_append_cons, hempty, List.nil_append]

section Columns

theorem lineFeed_not_mem_literal (s : Text) : .char '\n' ∉ literal s := by
  apply not_mem_literal (by decide)
  intro c _
  unfold escapeChar
  split
  case h_7 hfeed _ _ _ => simpa using fun h => hfeed h.symm
  all_goals decide

theorem propertyKey_cases (name : Text) :
    .char '\n' ∉ propertyKey name ∨
      ∃ word, .char '\n' ∉ word ∧ propertyKey name = word ++ [.char '\n'] := by
  unfold propertyKey
  split
  · rename_i h
    rcases isName_iff.mp h with hname | ⟨word, hword, rfl⟩
    · exact .inl (hname.word.2.not_mem (by decide))
    · exact .inr ⟨word, hword.word.2.not_mem (by decide), rfl⟩
  · exact .inl (lineFeed_not_mem_literal name)

theorem lineFeed_not_mem_expression {p : Text → Prop} {x : Text} (h : DataType.Expression p x) :
    .char '\n' ∉ x := by
  induction h with
  | builtIn h =>
    have hall : ∀ x ∈ DataType.builtIn, .char '\n' ∉ x := by decide
    exact hall _ h
  | interface => exact (Identifier.over_clean (by decide)).not_mem (by decide)
  | array h ih => simpa [ofString, ofChars] using ih

/-- The member of an interface for a column. -/
def columnText (c : Column) : Text :=
  let mark : Text := if c.nullable then "?" else ""
  propertyKey c.name ++ mark ++ ": " ++ c.type.client ++ ";"

/-- In an interface nothing is declared, even where a line ends behind the name of a column. -/
theorem declaredIn_columnText (c : Column) :
    declaredIn (Code.indent 1 ++ columnText c) = [] := by
  let mark : Text := if c.nullable then "?" else ""
  let rest : Text := mark ++ (": " ++ (c.type.client ++ ";"))
  have hrest : .char '\n' ∉ rest := by
    have hclient := lineFeed_not_mem_expression c.type.expression_client
    cases hn : c.nullable <;> simp [rest, mark, hn, hclient, ofString, ofChars]
  have htext : columnText c = propertyKey c.name ++ rest := by
    simp [columnText, rest, mark]
  rw [htext]
  rcases propertyKey_cases c.name with hkey | ⟨word, hword, hkey⟩
  · have hline : .char '\n' ∉ Code.indent 1 ++ (propertyKey c.name ++ rest) := by
      simp [Code.indent, hkey, hrest]
    rw [declaredIn_line hline, Code.boundBy_indent (Int.le_refl 1)]
  · have hfirst : .char '\n' ∉ Code.indent 1 ++ word := by simp [Code.indent, hword]
    have hlines : Code.indent 1 ++ (propertyKey c.name ++ rest) =
        (Code.indent 1 ++ word) ++ .char '\n' :: rest := by simp [hkey]
    have hsecond : boundBy rest = [] := by
      apply boundBy_eq_nil
      intro d hd
      cases hn : c.nullable <;> simp [rest, mark, hn, ofString, ofChars] at hd <;> subst hd <;> decide
    rw [hlines, declaredIn_append_cons, declaredIn_line hfirst, declaredIn_line hrest, hsecond,
      Code.boundBy_indent (Int.le_refl 1), List.append_nil]

end Columns

section Interfaces

theorem lines_lineAll {c : Code} {texts : List Text} (h : ∀ t ∈ texts, t ≠ []) :
    (c.lineAll texts).level = c.level ∧
      (c.lineAll texts).lines = c.lines ++ texts.map (Code.indent c.level ++ ·) := by
  induction texts generalizing c with
  | nil => exact ⟨rfl, (List.append_nil _).symm⟩
  | cons t texts ih =>
    have hne : t.isEmpty = false := by simpa using h t List.mem_cons_self
    obtain ⟨hl, hlines⟩ := ih (c := c.line t) fun u hu => h u (List.mem_cons_of_mem _ hu)
    refine ⟨hl, ?_⟩
    have hline : (c.line t).lines = c.lines ++ [Code.indent c.level ++ t] := by
      simp [Code.line, hne]
    rw [Code.lineAll, List.foldl_cons, ← Code.lineAll, hlines, hline]
    simp [Code.line]

/-- A block at the top level that holds nothing but lines. -/
theorem lines_block {c : Code} {texts : List Text} (hc : c.level = 0) (h : ∀ t ∈ texts, t ≠ [])
    (opening closing : Text) :
    (((c.enter opening).lineAll texts).leave closing).level = 0 ∧
      (((c.enter opening).lineAll texts).leave closing).lines =
        c.lines ++ opening :: (texts.map (Code.indent 1 ++ ·) ++ [closing]) := by
  have hlevel : (c.enter opening).level = 1 := by rw [Code.level_enter, hc]; rfl
  have henter : (c.enter opening).lines = c.lines ++ [opening] := Code.lines_line_top hc
  obtain ⟨hl, hlines⟩ := lines_lineAll (c := c.enter opening) h
  let body := (c.enter opening).lineAll texts
  have hleave : body.level - 1 = 0 := by
    rw [hl, hlevel]
    rfl
  refine ⟨hleave, ?_⟩
  calc (body.leave closing).lines
      = body.lines ++ [closing] := Code.lines_line_top hleave
    _ = _ := by rw [hlines, henter, hlevel]; simp

/-- The line that an interface opens with. -/
def interfaceLine (t : Table) : Text :=
  "export interface " ++ Identifier.ofTable t.name ++ " \x7b"

theorem interfaceText_eq (t : Table) :
    interfaceText t = joined "\n"
      (interfaceLine t ::
        (t.columns.map (Code.indent 1 ++ columnText ·) ++ [Text.ofString "\x7d"])) := by
  have htexts : ∀ u ∈ t.columns.map columnText, u ≠ [] := by
    intro u hu
    obtain ⟨c, -, rfl⟩ := List.mem_map.mp hu
    simp [columnText, ofString, ofChars]
  obtain ⟨-, hlines⟩ := lines_block (c := .empty) rfl htexts (interfaceLine t) "\x7d"
  rw [List.map_map] at hlines
  exact congrArg (joined "\n") hlines

theorem isWord_ofTable (name : Text) : IsWord (Identifier.ofTable name) := by
  obtain ⟨p, hp, -⟩ := (Identifier.isName_ofTable name).opens
  exact isWord_of_over (List.ne_nil_of_mem (List.mem_of_mem_head? hp))
    (Identifier.over_ofTable name)

theorem declaredIn_interfaceText (t : Table) :
    declaredIn (interfaceText t) = [Identifier.ofTable t.name] := by
  have hline : .char '\n' ∉ interfaceLine t := by
    have hname : .char '\n' ∉ Identifier.ofTable t.name :=
      (Identifier.over_ofTable t.name).not_mem (by decide)
    simp [interfaceLine, hname, ofString, ofChars]
  have hcolumns : (t.columns.map (Code.indent 1 ++ columnText ·)).flatMap declaredIn = [] := by
    rw [List.flatMap_map]
    exact List.flatMap_eq_nil_iff.mpr fun c _ => declaredIn_columnText c
  have hlast : [Text.ofString "\x7d"].flatMap declaredIn = [] := by decide
  rw [interfaceText_eq, declaredIn_lines (by simp), List.flatMap_cons, List.flatMap_append,
    hcolumns, hlast, declaredIn_line hline, List.append_nil, List.append_nil]
  exact Hook.boundBy_interface (isWord_ofTable t.name)

/-- The types declare an interface for every table, in their order, and nothing else. -/
theorem declaredIn_typesModule (tables : List Table) :
    declaredIn (typesModule tables) = tables.map fun t => Identifier.ofTable t.name := by
  unfold typesModule
  split
  · rename_i hempty
    rw [List.isEmpty_iff.mp hempty]
    decide
  · rename_i hne
    rw [declaredIn_parts (by simpa using hne), List.flatMap_map, List.map_eq_flatMap]
    simp [declaredIn_interfaceText]

end Interfaces

section Imports

/-- The interfaces that a module imports. -/
def Code.importedTypes (c : Code) : List Text :=
  c.named Binder.importType.names

/-- No line opens as two binders do. -/
theorem names_opening_of_ne (b other : Binder) (h : b ≠ other) (rest : Text) :
    b.names (other.opening ++ rest) = [] := by
  cases b <;> cases other <;>
    first
    | exact absurd rfl h
    | simp [Binder.names, Binder.opening, ofString, ofChars, List.dropPrefix?]

theorem names_opening (b : Binder) (rest : Text) :
    b.names (b.opening ++ rest) = boundBy (b.opening ++ rest) := by
  rw [boundBy_opening]
  cases b <;>
    simp [Binder.names, Binder.opening, Binder.closing, ofString, ofChars, List.dropPrefix?]

namespace Hook
variable (h : Hook) (config : Config) {b : Binder}

theorem names_libraryLine (hb : b ≠ .importValue) : b.names (h.libraryLine config) = [] := by
  have hnone := names_opening_of_ne b .importValue hb
    (h.libraryHook ++ " \x7d from " ++ literal config.queryPackage ++ ";")
  simpa [libraryLine, Binder.opening] using hnone

theorem names_typesLine (hb : b ≠ .importType) : b.names (h.typesLine config) = [] := by
  have hnone := names_opening_of_ne b .importType hb
    (joined ", " h.imports ++ " \x7d from " ++ literal config.typesImport ++ ";")
  simpa [typesLine, Binder.opening] using hnone

theorem names_interfaceLine (hb : b ≠ .interface) : b.names h.interfaceLine = [] := by
  have hnone := names_opening_of_ne b .interface hb (h.paramsType ++ " \x7b")
  simpa [interfaceLine, Binder.opening] using hnone

theorem names_functionLine (hb : b ≠ .function) : b.names h.functionLine = [] := by
  have hnone := names_opening_of_ne b .function hb (h.name ++ "(" ++ (h.signature ++ ") \x7b"))
  simpa [functionLine, Binder.opening] using hnone

/-- Only the line of the types imports interfaces. -/
theorem importedTypes_code (hi : ∀ n ∈ h.imports, IsWord n) :
    (h.code config).importedTypes = h.imports := by
  have htypes : Binder.importType.names (h.typesLine config) = h.imports := by
    have hself := names_opening .importType
      (joined ", " h.imports ++ " \x7d from " ++ literal config.typesImport ++ ";")
    have hline : Binder.importType.opening ++ (joined ", " h.imports ++ ofString " \x7d from " ++
        literal config.typesImport ++ ofString ";") = h.typesLine config := by
      simp [typesLine, Binder.opening]
    rw [hline] at hself
    exact hself.trans (boundBy_importType hi)
  rw [Code.importedTypes, h.named_code config (Code.bound_names _), htypes,
    h.names_libraryLine config (by simp), h.names_interfaceLine (by simp),
    h.names_functionLine (by simp)]
  cases h.imports <;> simp

end Hook

end Imports

end Client
end ApiScaffold
