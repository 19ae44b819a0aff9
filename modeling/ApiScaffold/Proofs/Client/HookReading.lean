import ApiScaffold.Proofs.Client.PropertyKeys
import ApiScaffold.Proofs.Client.CodeReading

namespace ApiScaffold.Client
open Text

/-- What a value of the query key says. -/
def Value.mentions : Value → List Mention
  | .text _ => []
  | .param name => [.access (accessed name)]

theorem tellsBeforeSign_code (v : Value) : TellsBeforeSign v.code (Value.mentions v) := by
  cases v with
  | text s => exact tellsBeforeSign_literal s
  | param name => exact tellsBeforeSign_member name

namespace Hook
open Code

/-- The types of a hook are read to their ends, and its names are words. -/
structure IsReadable (h : Hook) : Prop where
  imports : ∀ n ∈ h.imports, IsWord n
  paramsType : IsWord h.paramsType
  name : IsWord h.name
  fields : ∀ f ∈ h.fields, ∃ p, DataType.Expression p f.type
  result : TellsBeforeSign h.resultType []

variable {h : Hook}

section Front

theorem tells_libraryLine (h : Hook) (config : Config) : Tells (h.libraryLine config) [] := by
  have hopening : Tells "import \x7b " [] := tells_of_isSilent (by decide +kernel)
  have hname : Tells ("import \x7b " ++ h.libraryHook ++ " \x7d from ") [] :=
    hopening.around (Lexicon.apart_of_getLast (by decide))
      (tellsBeforeSign_word h.isWord_libraryHook) (by decide +kernel)
  have hstands : lexicon.Stands " \x7d from " := by decide
  exact hname.around hstands.append_apart (tellsBeforeSign_literal config.queryPackage)
    (by decide +kernel)

theorem tells_typesLine (hr : h.IsReadable) (config : Config) : Tells (h.typesLine config) [] := by
  have hopening : Tells "import type \x7b " [] := tells_of_isSilent (by decide +kernel)
  have hnames := tells_joined (fun n hn => tellsBeforeSign_word (hr.imports n hn))
    (t := " \x7d from ") (by decide +kernel)
  have hsilent : h.imports.flatMap (fun _ => ([] : List Mention)) = [] :=
    List.flatMap_eq_nil_iff.mpr fun _ _ => rfl
  rw [List.map_id', hsilent] at hnames
  have hfront := hopening.append hnames (Lexicon.apart_of_getLast (by decide))
  rw [← List.append_assoc] at hfront
  have hstands : lexicon.Stands " \x7d from " := by decide
  exact hfront.around hstands.append_apart (tellsBeforeSign_literal config.typesImport)
    (by decide +kernel)

/-- What stands behind the first line of the module and in front of the interface. -/
def headerRest (config : Config) (h : Hook) (c : Code) : Code :=
  (if h.imports.isEmpty then c else c.line (h.typesLine config)).line ""

theorem adds_headerRest (hr : h.IsReadable) (config : Config) :
    Adds (h.headerRest config) [] := by
  have hblank : Tells "" [] := tells_of_isSilent (by decide +kernel)
  unfold headerRest
  split
  · exact Adds.id.line hblank
  · exact (Adds.id.line (tells_typesLine hr config)).line hblank

theorem adds_interface (hr : h.IsReadable) : Adds h.interface [] := by
  have hopening : Tells "export interface " [] := tells_of_isSilent (by decide +kernel)
  have hline : Tells h.interfaceLine [] :=
    hopening.around (Lexicon.apart_of_getLast (by decide)) (tellsBeforeSign_word hr.paramsType)
      (by decide +kernel)
  have hfields : ∀ t ∈ h.fields.map Field.code, Tells t [] := by
    intro t ht
    obtain ⟨f, hf, rfl⟩ := List.mem_map.mp ht
    obtain ⟨p, hp⟩ := hr.fields f hf
    exact tells_field hp
  unfold interface
  split
  · exact Adds.id
  · exact (((Adds.id.enter hline).lineAll hfields).leave
      (tells_of_isSilent (by decide +kernel))).line (tells_of_isSilent (by decide +kernel))

/-- What stands first where the arguments of the hook do. -/
def firstArgument (h : Hook) : Lexeme :=
  if h.fields.isEmpty then .sign (.char ')') else .word "params"

/-- The arguments of the hook, and the brace behind them. -/
def arguments (h : Hook) : List Lexeme :=
  if h.fields.isEmpty then [.sign (.char ')'), .sign (.char '{')]
  else
    [.word "params", .sign (.char ':'), .word h.paramsType] ++
      ((if h.fields.any (·.required) then []
        else [.sign (.char '='), .sign (.char '{'), .sign (.char '}')]) ++
        [.sign (.char ')'), .sign (.char '{')])

theorem lex_arguments (hr : h.IsReadable) :
    lexicon.lex (h.signature ++ ") \x7b") = some h.arguments := by
  have hend : lexicon.lex ") \x7b" = some [.sign (.char ')'), .sign (.char '{')] := by
    decide +kernel
  unfold signature arguments
  split
  · exact hend
  · let mark : Text := Text.ofString (if h.fields.any (·.required) then "" else " = \x7b\x7d")
    have hmark : lexicon.lex (mark ++ ") \x7b") = some
        ((if h.fields.any (·.required) then []
          else [.sign (.char '='), .sign (.char '{'), .sign (.char '}')]) ++
          [.sign (.char ')'), .sign (.char '{')]) := by
      cases hreq : h.fields.any (·.required) <;> simp only [mark, hreq] <;> decide +kernel
    have hopens : ∀ p ∈ (mark ++ ofString ") \x7b").head?, p.is isNamePart = false := by
      cases hreq : h.fields.any (·.required) <;> simp only [mark, hreq] <;> decide
    have hparams : lexicon.lex "params: " = some [.word "params", .sign (.char ':')] := by
      decide +kernel
    have htype := Lexicon.lex_append_eq_some hparams
      (Lexicon.lex_of_over hr.paramsType.1 hr.paramsType.2) (Lexicon.apart_of_getLast (by decide))
    have hall := Lexicon.lex_append_eq_some htype hmark (Lexicon.apart_of_head hopens)
    rw [← List.append_assoc] at hall
    exact hall

theorem yields_arguments (h : Hook) : Yields h.arguments [] := by
  unfold arguments
  split
  · exact Silent.yields (by decide)
  · have hsign (c : Char) {xs : List Lexeme} (hxs : Yields xs []) :
        Yields (.sign (.char c) :: xs) [] :=
      (silent_sign _).yields.append hxs
    have hend : Yields [.sign (.char ')'), .sign (.char '{')] [] := Silent.yields (by decide)
    refine .cons_sign (by decide) (hsign ':' ?_)
    split
    · exact .cons_sign (by decide) hend
    · exact .cons_sign (by decide) (hsign '=' (hsign '{' (hsign '}' hend)))

theorem arguments_eq_cons (h : Hook) : ∃ xs, h.arguments = h.firstArgument :: xs := by
  unfold arguments firstArgument
  split <;> exact ⟨_, rfl⟩

theorem free_arguments (h : Hook) : Free marks h.arguments := by
  unfold arguments
  split
  · decide
  · split <;> simp [Free, marks]

theorem tells_functionLine (hr : h.IsReadable) :
    Tells h.functionLine [.function h.name h.firstArgument] := by
  have hopening : lexicon.lex "export function " = some [.word "export", .word "function"] := by
    decide +kernel
  have hparen : lexicon.lex "(" = some [.sign (.char '(')] := by decide +kernel
  have hstands : lexicon.Stands "(" := by decide
  have hlex := Lexicon.lex_append_eq_some
    (Lexicon.lex_append_eq_some
      (Lexicon.lex_append_eq_some hopening (Lexicon.lex_of_over hr.name.1 hr.name.2)
        (Lexicon.apart_of_getLast (by decide)))
      hparen (Lexicon.apart_of_head (by decide)))
    (lex_arguments hr) hstands.append_apart
  obtain ⟨xs, harguments⟩ := arguments_eq_cons h
  have hyields := yields_arguments h
  have hfree := free_arguments h
  rw [harguments] at hlex hyields hfree
  have hname : Yields (.word h.name :: .sign (.char '(') :: h.firstArgument :: xs) [] :=
    .cons_sign (by decide) ((silent_sign _).yields.append hyields)
  -- The word opens the name, and what it says ends with the first of the arguments.
  have hfunction : Yields
      (.word "function" :: .word h.name :: .sign (.char '(') :: h.firstArgument :: xs)
      [.function h.name h.firstArgument] :=
    .cons (m := some (.function h.name h.firstArgument)) (fun _ => rfl) hname
  have hexport : Yields [.word "export"] [] := Silent.yields (by decide)
  exact tells_of_lex hlex (Free.append (by simp [Free, marks]) hfree) (hexport.append hfunction)

theorem tells_returnLine (hr : h.IsReadable) :
    Tells ("return " ++ h.libraryHook ++ "<" ++ h.resultType ++ ">(\x7b") [] := by
  have hopening : Tells "return " [] := tells_of_isSilent (by decide +kernel)
  have hname : Tells ("return " ++ h.libraryHook ++ "<") [] :=
    hopening.around (Lexicon.apart_of_getLast (by decide))
      (tellsBeforeSign_word h.isWord_libraryHook) (by decide +kernel)
  have hstands : lexicon.Stands "<" := by decide
  exact hname.around hstands.append_apart hr.result (by decide +kernel)

theorem tells_keyLine (h : Hook) :
    Tells ("queryKey: " ++ arrayLiteral (h.key.map Value.code) ++ ",")
      (h.key.flatMap Value.mentions) := by
  have hopening : Tells "queryKey: [" [] := tells_of_isSilent (by decide +kernel)
  have hvalues := tells_joined (fun v (_ : v ∈ h.key) => tellsBeforeSign_code v)
    (t := "],") (by decide +kernel)
  have hline := hopening.append hvalues (Lexicon.apart_of_getLast (by decide))
  simpa [arrayLiteral, ofString, ofChars] using hline

/-- What the opening lines of the hook say. -/
def openingMentions (h : Hook) : List Mention :=
  .function h.name h.firstArgument :: if h.isRead then h.key.flatMap Value.mentions else []

/-- What stands between the comment and the query string. -/
def begun (h : Hook) (c : Code) : Code :=
  let c := c.enter h.functionLine
  let c := c.enter ("return " ++ h.libraryHook ++ "<" ++ h.resultType ++ ">(\x7b")
  if h.isRead then
    (c.line ("queryKey: " ++ arrayLiteral (h.key.map Value.code) ++ ",")).enter
      "queryFn: async () => \x7b"
  else c.enter "mutationFn: async () => \x7b"

theorem adds_begun (hr : h.IsReadable) : Adds h.begun h.openingMentions := by
  have hlines := (Adds.id.enter (tells_functionLine hr)).enter (tells_returnLine hr)
  unfold begun openingMentions
  split
  · have hkey := (hlines.line (tells_keyLine h)).enter (s := "queryFn: async () => \x7b")
      (tells_of_isSilent (by decide +kernel))
    simpa using hkey
  · have hnone := hlines.enter (s := "mutationFn: async () => \x7b")
      (tells_of_isSilent (by decide +kernel))
    simpa using hnone

/-- What the lines of the query string say. -/
def queryMentions (h : Hook) : List Mention :=
  if h.query.isEmpty then []
  else
    .constant "queryParamsObj" :: (h.query.map fun name => .access (accessed name)) ++
      [.constant "query"]

theorem tells_queryLine {names : List Text} (hne : names ≠ []) :
    Tells ("const queryParamsObj = Object.fromEntries(Object.entries(" ++ queryObject names ++
        ").filter(([, v]) => v !== undefined).map(([k, v]) => [k, String(v)]));")
      (.constant "queryParamsObj" :: names.map fun name => .access (accessed name)) := by
  have hopening : Tells "const queryParamsObj = Object.fromEntries(Object.entries(\x7b "
      [.constant "queryParamsObj"] := tells_of_declares (by decide +kernel)
  have hentries := tells_joined (fun name (_ : name ∈ names) => tellsBeforeSign_entry name)
    (t := " \x7d).filter(([, v]) => v !== undefined).map(([k, v]) => [k, String(v)]));")
    (by decide +kernel)
  have hline := hopening.append hentries (Lexicon.apart_of_getLast (by decide))
  have hempty : names.isEmpty = false := by simpa using hne
  simpa [queryObject, objectLiteral, hempty, Value.code, ofString, ofChars, Function.comp_def,
    ← List.map_eq_flatMap] using hline

theorem adds_queryString (h : Hook) : Adds h.queryString h.queryMentions := by
  unfold queryString queryMentions
  split
  · exact Adds.id
  · rename_i hne
    have hobject := Adds.id.line (tells_queryLine (by simpa using hne))
    exact hobject.line (s := "const query = new URLSearchParams(queryParamsObj).toString();")
      (tells_of_declares (by decide +kernel))

end Front

section Back

/-- What the request says of its body. -/
def bodyMentions (h : Hook) : List Mention :=
  if h.isRead then [] else h.body.toList.map fun field => .access (accessed field)

def address (h : Hook) : Text :=
  template (h.url.map UrlPart.part)

/-- What stands behind the address in its line. -/
def addressEnd (h : Hook) : Text :=
  if h.isRead then ");" else ", \x7b"

/-- What stands behind the line of the address. -/
def request (h : Hook) (c : Code) : Code :=
  if h.isRead then c
  else
    let c := c.line ("method: " ++ literal h.method.name ++ ",")
    let c :=
      match h.body with
      | none => c
      | some field =>
        (c.line "headers: \x7b 'Content-Type': 'application/json' \x7d,").line
          ("body: JSON.stringify(" ++ (Value.param field).code ++ "),")
    c.leave "\x7d);"

theorem tells_bodyLine (field : Text) :
    Tells ("body: JSON.stringify(" ++ (Value.param field).code ++ "),")
      [.access (accessed field)] := by
  have hopening : Tells "body: JSON.stringify(" [] := tells_of_isSilent (by decide +kernel)
  exact hopening.around (Lexicon.apart_of_getLast (by decide)) (tellsBeforeSign_member field)
    (by decide +kernel)

theorem adds_request (h : Hook) : Adds h.request h.bodyMentions := by
  unfold request bodyMentions
  split
  · exact Adds.id
  · have hmethod : Tells ("method: " ++ literal h.method.name ++ ",") [] := by
      have hopening : Tells "method: " [] := tells_of_isSilent (by decide +kernel)
      exact hopening.around (Lexicon.apart_of_getLast (by decide)) (tellsBeforeSign_literal _)
        (by decide +kernel)
    have hclosing : Tells "\x7d);" [] := tells_of_isSilent (by decide +kernel)
    have hheaders : Tells "headers: \x7b 'Content-Type': 'application/json' \x7d," [] :=
      tells_of_isSilent (by decide +kernel)
    cases h.body with
    | none => exact (Adds.id.line hmethod).leave hclosing
    | some field =>
      exact (((Adds.id.line hmethod).line hheaders).line (tells_bodyLine field)).leave hclosing

theorem adds_failure : Adds failure [] := by
  have hopening : Tells "if (!response.ok) \x7b" [] := tells_of_isSilent (by decide +kernel)
  have hthrow : Tells ("throw Object.assign(new Error(" ++
      literal "Network response was not ok" ++ "), \x7b name: 'NetworkError' \x7d);") [] :=
    tells_of_isSilent (by decide +kernel)
  exact ((Adds.id.enter hopening).line hthrow).leave (tells_of_isSilent (by decide +kernel))

theorem adds_result (hr : h.IsReadable) : Adds h.result [] := by
  have hopening : Tells "return (await response.json()) as " [] :=
    tells_of_isSilent (by decide +kernel)
  have hreturn : Tells ("return (await response.json()) as " ++ h.resultType ++ ";") [] :=
    hopening.around (Lexicon.apart_of_getLast (by decide)) hr.result (by decide +kernel)
  unfold result
  split
  · exact Adds.id.line hreturn
  · split
    · exact Adds.id.line (tells_of_isSilent (by decide +kernel))
    · exact Adds.id.line (tells_of_isSilent (by decide +kernel))

/-- What the module ends with, behind the address. -/
def ended (h : Hook) (c : Code) : Code :=
  (((h.result (failure (h.request c))).leave "\x7d,").leave "\x7d);").leave "\x7d"

theorem adds_ended (hr : h.IsReadable) : Adds h.ended h.bodyMentions := by
  have hinner := (adds_result hr).comp (adds_failure.comp (adds_request h))
  have houter := ((hinner.leave (s := "\x7d,") (tells_of_isSilent (by decide +kernel))).leave
    (s := "\x7d);") (tells_of_isSilent (by decide +kernel))).leave (s := "\x7d")
    (tells_of_isSilent (by decide +kernel))
  simp only [List.append_nil] at houter
  exact houter

end Back

section Whole

/-- The module in front of the line of the address. -/
def front (config : Config) (h : Hook) : Code :=
  h.queryString (h.begun
    ((h.interface (h.headerRest config (Code.empty.line (h.libraryLine config)))).lineAll
      (docComment h.summary)))

/-- The line of the address. -/
def addressLine (h : Hook) : Text :=
  "const response = await fetch(" ++ h.address ++ h.addressEnd

/-- A request without options is one line, and with them a block: only the level differs. -/
theorem fetch_eq (h : Hook) (c : Code) :
    ∃ level, h.fetch c = h.request ⟨(c.line h.addressLine).lines, level⟩ := by
  unfold fetch request addressLine addressEnd address
  split
  · exact ⟨c.level, rfl⟩
  · exact ⟨c.level + 1, rfl⟩

/-- The module is its front, the line of the address, and what follows. -/
theorem code_eq (config : Config) (h : Hook) :
    ∃ level, h.code config = h.ended ⟨((h.front config).line h.addressLine).lines, level⟩ := by
  obtain ⟨level, hfetch⟩ := h.fetch_eq (h.front config)
  have hline : h.functionLine = "export function " ++ h.name ++ "(" ++ h.signature ++ ") \x7b" := by
    simp [functionLine]
  have hbegun : h.code config =
      (((h.result (failure (h.fetch (h.front config)))).leave "\x7d,").leave "\x7d);").leave
        "\x7d" := by
    rw [front, begun, hline]
    rfl
  refine ⟨level, ?_⟩
  rw [hbegun, hfetch]
  rfl

theorem tells_front (hr : h.IsReadable) (config : Config) :
    (h.front config).lines ≠ [] ∧
      Tells (h.front config).text (h.openingMentions ++ h.queryMentions) := by
  let first : Code := Code.empty.line (h.libraryLine config)
  have hfirst : Tells first.text [] := by
    rw [Code.text, lines_line_top rfl]
    simpa [joined, Code.empty] using tells_libraryLine h config
  have hinterface := (adds_interface hr).comp (adds_headerRest hr config) first
    (List.cons_ne_nil _ _)
  -- A comment is one piece of the text, and its lines stay as they are at the top level only.
  have hlevel : (h.interface (h.headerRest config first)).level = 0 :=
    (h.named_interface (h.named_header config bound_boundBy).1 bound_boundBy).1
  have hcomment := hinterface.trans (goesOn_docComment hinterface.1 hlevel h.summary)
  have hfront := hcomment.trans ((adds_queryString h).comp (adds_begun hr) _ hcomment.1)
  exact ⟨hfront.1, hfront.tells hfirst⟩

/-- What stands between the front and the address. -/
def fetchOpening (config : Config) (h : Hook) : Text :=
  [.char '\n'] ++ (indent (h.front config).level ++ ofString "const response = await fetch(")

theorem tells_fetchOpening (config : Config) (h : Hook) :
    Tells (h.fetchOpening config) [.constant "response"] := by
  have hbreak : Tells [.char '\n'] [] := tells_of_isSilent (by decide +kernel)
  have hstands : lexicon.Stands [.char '\n'] := by decide
  have hfetch : Tells "const response = await fetch(" [.constant "response"] :=
    tells_of_declares (by decide +kernel)
  exact hbreak.append ((tells_indent _).append hfetch (apart_indent _ _)) hstands.apart

theorem exists_text_eq (hr : h.IsReadable) (config : Config) :
    ∃ t, h.text config = ((h.front config).text ++ h.fetchOpening config) ++
        (h.address ++ (h.addressEnd ++ t)) ∧
      Tells (h.addressEnd ++ t) h.bodyMentions := by
  obtain ⟨level, hcode⟩ := code_eq config h
  let c : Code := ⟨((h.front config).line h.addressLine).lines, level⟩
  obtain ⟨-, t, ht, htells, hhead⟩ := adds_ended hr c (by simp [c, Code.line])
  refine ⟨t, ?_, ?_⟩
  · have hline : h.addressLine.isEmpty = false := by simp [addressLine, ofString, ofChars]
    have hc : c.text = (h.front config).text ++
        ([.char '\n'] ++ (indent (h.front config).level ++ h.addressLine)) := by
      have hwritten := text_line (tells_front hr config).1 h.addressLine
      rwa [hline] at hwritten
    calc h.text config = (h.code config).text := rfl
      _ = c.text ++ t := by rw [← ht, ← hcode]
      _ = _ := by simp [hc, fetchOpening, addressLine]
  · have hend : Tells h.addressEnd [] := by
      unfold addressEnd
      split <;> exact tells_of_isSilent (by decide +kernel)
    exact hend.append htells (Lexicon.apart_of_head hhead)

/-- The module is read to its end, and its address is where the one template stands. -/
theorem read_text (hr : h.IsReadable) {xs : List Lexeme}
    (haddress : Reads h.address (backtick :: (xs ++ [backtick]))) (config : Config) :
    ∃ before after, read (h.text config) = some (before ++ backtick :: (xs ++ backtick :: after)) ∧
      Free marks before ∧ Free marks after ∧
      Yields before (h.openingMentions ++ h.queryMentions ++ [.constant "response"]) ∧
      Yields after h.bodyMentions := by
  obtain ⟨t, htext, hback⟩ := exists_text_eq hr config
  have hfront := (tells_front hr config).2.append (tells_fetchOpening config h)
    (Lexicon.apart_of_head (by rintro p ⟨⟩; decide))
  obtain ⟨before, hbefore, hfree, hyields⟩ := hfront
  obtain ⟨after, hafter, hfree', hyields'⟩ := hback
  refine ⟨before, after, ?_, hfree, hfree', hyields, hyields'⟩
  have hclosing : lexicon.Apart h.address (h.addressEnd ++ t) := by
    apply Lexicon.apart_of_head
    unfold addressEnd
    split <;> (rintro p ⟨⟩; decide)
  have hopening : lexicon.Apart ((h.front config).text ++ h.fetchOpening config)
      (h.address ++ (h.addressEnd ++ t)) :=
    Lexicon.apart_of_head (by rintro p ⟨⟩; decide)
  rw [htext, (hbefore.append (haddress.append hafter hclosing) hopening).read_eq]
  simp

end Whole

end Hook

end ApiScaffold.Client
