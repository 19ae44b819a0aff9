import ApiScaffold.Proofs.Client.Fields
import ApiScaffold.Proofs.Client.Lexicon

namespace ApiScaffold
open Text

namespace Client

section Written

namespace Code
variable {g k : Code → Code} {text : Text}

/-- Writes behind what was written. -/
def Grows (g : Code → Code) : Prop :=
  ∀ c, c.lines <+: (g c).lines

theorem Grows.id : Grows fun c => c :=
  fun c => List.prefix_refl c.lines

theorem Grows.comp (hk : Grows k) (hg : Grows g) : Grows fun c => k (g c) :=
  fun c => (hg c).trans (hk (g c))

theorem Grows.line (hg : Grows g) : Grows fun c => (g c).line text :=
  fun c => (hg c).trans (List.prefix_append _ _)

theorem Grows.enter (hg : Grows g) : Grows fun c => (g c).enter text :=
  fun c => (hg c).trans (List.prefix_append _ _)

theorem Grows.leave (hg : Grows g) : Grows fun c => (g c).leave text :=
  fun c => (hg c).trans (List.prefix_append _ _)

theorem Grows.lineAll (texts : List Text) : Grows (Code.lineAll texts) := by
  induction texts with
  | nil => exact Grows.id
  | cons text texts ih => exact ih.comp Grows.id.line

end Code

namespace Hook
open Code
variable (h : Hook)

theorem grows_queryString : Grows h.queryString := by
  unfold queryString
  split
  · exact Grows.id
  · exact Grows.id.line.line

theorem grows_fetch : Grows h.fetch := by
  unfold fetch
  split
  · exact Grows.id.line
  · cases h.body with
    | none => exact Grows.id.enter.line.leave
    | some field => exact Grows.id.enter.line.line.line.leave

/-- What stands in front of the query string. -/
def opened (h : Hook) (c : Code) : Code :=
  let c := c.lineAll (docComment h.summary)
  let c := c.enter ("export function " ++ h.name ++ "(" ++ h.signature ++ ") \x7b")
  let c := c.enter ("return " ++ h.libraryHook ++ "<" ++ h.resultType ++ ">(\x7b")
  if h.isRead then
    (c.line ("queryKey: " ++ arrayLiteral (h.key.map Value.code) ++ ",")).enter
      "queryFn: async () => \x7b"
  else c.enter "mutationFn: async () => \x7b"

theorem grows_opened : Grows h.opened := by
  unfold opened
  split
  · exact (Grows.lineAll _).enter.enter.line.enter
  · exact (Grows.lineAll _).enter.enter.enter

theorem queryString_prefix (config : Config) :
    (h.queryString (h.opened (h.interface (h.header config .empty)))).lines <+:
      (h.code config).lines :=
  h.grows_fetch.enter.line.leave.line.leave.leave.leave _

theorem interface_prefix (config : Config) :
    (h.interface (h.header config .empty)).lines <+: (h.code config).lines :=
  ((h.grows_queryString.comp h.grows_opened) _).trans (h.queryString_prefix config)

/-- The interface of the parameters stands in the module. -/
theorem infix_interfaceLines (config : Config) (hne : h.fields ≠ []) :
    interfaceLines h.paramsType h.fields <:+: (h.code config).lines := by
  have hempty : h.fields.isEmpty = false := by simpa using hne
  have hlevel : (h.header config .empty).level = 0 := by
    unfold header
    split <;> rfl
  have hcode : ∀ t ∈ h.fields.map Field.code, t ≠ [] := by
    intro t ht
    obtain ⟨f, -, rfl⟩ := List.mem_map.mp ht
    simp [Field.code, ofString, ofChars]
  obtain ⟨hl, hlines⟩ := lines_block hlevel hcode h.interfaceLine "\x7d"
  rw [List.map_map] at hlines
  have hblock : (h.interface (h.header config .empty)).lines =
      (h.header config .empty).lines ++ interfaceLines h.paramsType h.fields ++ [[]] := by
    rw [interface, hempty]
    exact (Code.lines_line_top hl).trans (congrArg (· ++ _) hlines)
  have hwithin : interfaceLines h.paramsType h.fields <:+:
      (h.interface (h.header config .empty)).lines :=
    ⟨_, [[]], hblock.symm⟩
  exact hwithin.trans (h.interface_prefix config).isInfix

/-- The object of the query stands in a line of the module. -/
theorem exists_line_queryObject (config : Config) (hne : h.query ≠ []) :
    ∃ line ∈ (h.code config).lines,
      Text.ofString "Object.entries(" ++ queryObject h.query ++ Text.ofString ").filter(" <:+:
        line := by
  have hempty : h.query.isEmpty = false := by simpa using hne
  let before := h.opened (h.interface (h.header config .empty))
  let text : Text := "const queryParamsObj = Object.fromEntries(Object.entries(" ++
    queryObject h.query ++
      ").filter(([, v]) => v !== undefined).map(([k, v]) => [k, String(v)]));"
  have hline : Code.indent before.level ++ text ∈ (h.queryString before).lines := by
    have htext : text.isEmpty = false := by simp [text, ofString, ofChars]
    have hfirst : Code.indent before.level ++ text ∈ (before.line text).lines := by
      simp [Code.line, htext]
    rw [queryString, hempty]
    exact List.mem_append_left _ hfirst
  refine ⟨_, (h.queryString_prefix config).subset hline,
    Code.indent before.level ++ "const queryParamsObj = Object.fromEntries(",
    "([, v]) => v !== undefined).map(([k, v]) => [k, String(v)]));", ?_⟩
  simp [text, ofString, ofChars]

end Hook

end Written

section Hooks
variable (policy : Name.Policy) (config : Config) (f : Endpoint)

/-- The names of the parameters of a client and of the member for the body. -/
def memberNames : List Text :=
  f.clientParameters.map (·.name) ++ ((nonEmpty? f.requestBody).map fun _ => f.bodyField).toList

/-- The type of a field is that of a parameter or of the body. -/
theorem exists_client_of_mem_fields {policy : Name.Policy} {f : Endpoint} {field : Field}
    (h : field ∈ (f.hook policy).fields) : ∃ t : DataType, t.client = field.type := by
  simp only [Endpoint.hook, Endpoint.clientFields, List.mem_append, List.mem_map,
    Option.mem_toList, Option.map_eq_some_iff] at h
  rcases h with (⟨p, -, rfl⟩ | ⟨p, -, rfl⟩) | ⟨body, -, rfl⟩
  · exact ⟨p.type, rfl⟩
  · exact ⟨p.type, rfl⟩
  · exact ⟨.ofName policy body, rfl⟩

theorem isPlain_fields : ∀ field ∈ (f.hook policy).fields, ∃ xs, IsPlain field.type xs := by
  intro field hfield
  obtain ⟨t, ht⟩ := exists_client_of_mem_fields hfield
  exact ht ▸ isPlain_expression t.expression_client

theorem readInterface_fields :
    readInterface (joined "\n" (interfaceLines (f.hook policy).paramsType (f.hook policy).fields)) =
      some ((f.hook policy).paramsType, (memberNames f).map accessed) := by
  have hnames : (f.hook policy).fields.map (·.name) = memberNames f :=
    f.names_clientFields policy
  rw [readInterface_lines (f.isWord_paramsType policy) (isPlain_fields policy f), ← hnames,
    List.map_map]
  rfl

theorem interface_read : (f.hook policy).fields = [] ∨
    ∃ block, block <:+: ((f.hook policy).code config).lines ∧
      readInterface (joined "\n" block) =
        some ((f.hook policy).paramsType, (memberNames f).map accessed) := by
  by_cases h : (f.hook policy).fields = []
  · exact .inl h
  · exact .inr ⟨_, (f.hook policy).infix_interfaceLines config h, readInterface_fields policy f⟩

theorem object_read : f.queryParameters = [] ∨
    ∃ line ∈ ((f.hook policy).code config).lines, ∃ object,
      Text.ofString "Object.entries(" ++ object ++ Text.ofString ").filter(" <:+: line ∧
        readObject object = some (f.queryParameters.map fun p => accessed p.name) := by
  by_cases h : f.queryParameters = []
  · exact .inl h
  · have hne : (f.hook policy).query ≠ [] := by simpa [Endpoint.hook] using h
    obtain ⟨line, hline, hobject⟩ := (f.hook policy).exists_line_queryObject config hne
    refine .inr ⟨line, hline, _, hobject, ?_⟩
    rw [readObject_queryObject, Endpoint.hook, List.map_map]
    rfl

/-- A name is written without quotes just where it is an identifier, with or without a line feed
behind it. The keys of an interface and of the object of a query are read as the names that they
are written for, but for such a line feed; where it is all that two names differ in, they are read
as one. -/
theorem keys_read (tables : List Table) :
    (∀ name, propertyKey name = if IsBare name then name else literal name) ∧
    (∀ object name, member object name =
      if IsBare name then object ++ "." ++ name else object ++ "[" ++ literal name ++ "]") ∧
    (∀ name, readKey (literal name) = some name ∧
      readKey (propertyKey name) = some (accessed name) ∧
      (accessed name = name ↔ ¬ EndsInFeed name)) ∧
    (∀ a b, accessed a = accessed b ↔
      a = b ∨ (IsIdentifier a ∧ b = a ++ [.char '\n']) ∨ (IsIdentifier b ∧ a = b ++ [.char '\n'])) ∧
    (tables = [] ∨ ∃ parts, typesModule tables = joined "\n\n" parts ∧
      parts.map readInterface = tables.map fun t =>
        some (Identifier.ofTable t.name, t.columns.map fun c => accessed c.name)) ∧
    ((f.hook policy).fields = [] ∨
      ∃ block, block <:+: ((f.hook policy).code config).lines ∧
        readInterface (joined "\n" block) =
          some ((f.hook policy).paramsType, (memberNames f).map accessed)) ∧
    (f.queryParameters = [] ∨
      ∃ line ∈ ((f.hook policy).code config).lines, ∃ object,
        Text.ofString "Object.entries(" ++ object ++ Text.ofString ").filter(" <:+: line ∧
          readObject object = some (f.queryParameters.map fun p => accessed p.name)) :=
  ⟨propertyKey_eq, member_eq,
    fun name => ⟨readKey_literal name, readKey_propertyKey name, accessed_eq_self_iff_not⟩,
    fun _ _ => accessed_eq_iff, typesModule_read tables, interface_read policy config f,
    object_read policy config f⟩

/-- With a line feed behind it the name goes without quotes, and what is read is the name alone. -/
theorem readKey_lineFeed :
    ¬ IsIdentifier "a\n" ∧ propertyKey "a\n" = "a\n" ∧
    readKey (propertyKey "a\n") = readKey (propertyKey "a") ∧
    (readInterface (interfaceText
      ⟨"t", [⟨"a", .string, false, false⟩, ⟨"a\n", .string, false, false⟩]⟩)).map (·.2) =
        some [Text.ofString "a", "a"] := by
  refine ⟨by decide, by decide, ?_, ?_⟩
  · rw [readKey_propertyKey, readKey_propertyKey]
    decide
  · rw [readInterface_interfaceText]
    decide

end Hooks

end Client
end ApiScaffold
