import ApiScaffold.Proofs.Client.Addresses
import ApiScaffold.Proofs.Client.HookReading
import ApiScaffold.Proofs.Client.Interfaces

namespace ApiScaffold
open Text Client

namespace Client
variable {xs ys zs : List Lexeme} {ms ns ls : List Mention} {ps qs : List Part} {name : Text}

section Mentioned

def Mention.access? : Mention → Option Text
  | access name => some name
  | _ => none

def Mention.constant? : Mention → Option Text
  | constant name => some name
  | _ => none

def Mention.function? : Mention → Option (Text × Lexeme)
  | function name first => some (name, first)
  | _ => none

/-- The members of the parameters that code reads, in its order. -/
def accesses (xs : List Lexeme) : List Text :=
  (mentions xs).filterMap Mention.access?

/-- The constants that code declares. -/
def constants (xs : List Lexeme) : List Text :=
  (mentions xs).filterMap Mention.constant?

/-- The functions that code declares, each with what stands first where its arguments do. -/
def functions (xs : List Lexeme) : List (Text × Lexeme) :=
  (mentions xs).filterMap Mention.function?

/-- The words of code that name no member. -/
def usedNames : List Lexeme → List Text
  | [] => []
  | .sign (.char '.') :: .word _ :: xs => usedNames xs
  | .word name :: xs => name :: usedNames xs
  | _ :: xs => usedNames xs

theorem Yields.accesses_eq (h : Yields xs ms) : accesses xs = ms.filterMap Mention.access? := by
  rw [accesses, h.mentions_eq]

/-- What is read around a template and in it is read one after the other. -/
theorem accesses_template (hx : Yields xs ms) (hy : Yields ys ns) (hz : Yields zs ls) :
    accesses (xs ++ backtick :: (ys ++ backtick :: zs)) =
      accesses xs ++ (accesses ys ++ accesses zs) := by
  have hmark : Yields [backtick] [] := Silent.yields (by decide)
  have hall : Yields (xs ++ ([backtick] ++ (ys ++ ([backtick] ++ zs))))
      (ms ++ ([] ++ (ns ++ ([] ++ ls)))) :=
    hx.append (hmark.append (hy.append (hmark.append hz)))
  rw [hx.accesses_eq, hy.accesses_eq, hz.accesses_eq]
  exact hall.accesses_eq.trans (by simp)

end Mentioned

section Expressions

theorem readParts_gather (pending : Text) (ps : List Part) :
    readParts (Part.gather pending ps) = readParts ps := by
  induction ps generalizing pending with
  | nil => rfl
  | cons p ps ih =>
    cases p with
    | text s => exact ih (pending ++ s)
    | expression code => simp only [Part.gather, readParts, ih]

theorem readParts_append (hp : readParts ps = some xs) (hq : readParts qs = some ys) :
    readParts (ps ++ qs) = some (xs ++ ys) := by
  induction ps generalizing xs with
  | nil =>
    cases hp
    exact hq
  | cons p ps ih =>
    cases p with
    | text s => exact ih hp
    | expression code =>
      simp only [readParts, Option.bind_eq_bind, Option.bind_eq_some_iff] at hp
      obtain ⟨us, hus, vs, hvs, he⟩ := hp
      obtain rfl := Option.some.inj he
      simp [readParts, hus, ih hvs]

/-- How the expression that fills in a placeholder is read. -/
def filledLexemes (name : Text) : List Lexeme :=
  [.sign (.char '{'), .word "encodeURIComponent", .sign (.char '(')] ++
    ((valueLexemes name ++ [.sign (.char ')')]) ++ [.sign (.char '}')])

/-- How the expression for the query is read. -/
def queryLexemes : List Lexeme :=
  [.sign (.char '{'), .word "query", .sign (.char '?'), .quoted "?", .sign (.char '+'),
    .word "query", .sign (.char ':'), .quoted "", .sign (.char '}')]

theorem readParts_encoded (name : Text) :
    readParts [.expression (encoded name)] = some (filledLexemes name) := by
  have hopening : lexicon.lex "encodeURIComponent(" =
      some [.word "encodeURIComponent", .sign (.char '(')] := by decide +kernel
  have hclosing : lexicon.lex ")" = some [.sign (.char ')')] := by decide +kernel
  have hlex := Lexicon.lex_append_eq_some
    (Lexicon.lex_append_eq_some hopening (lex_member name)
      (Lexicon.apart_of_getLast (by decide))) hclosing
    (Lexicon.apart_of_head (by decide))
  have hencoded : lexicon.lex (encoded name) = _ := hlex
  simp [readParts, hencoded, filledLexemes]

theorem readParts_query :
    readParts [.expression "query ? '?' + query : ''"] = some queryLexemes := by
  decide +kernel

theorem yields_filledLexemes (name : Text) :
    Yields (filledLexemes name) [.access (accessed name)] := by
  have hopening : Silent
      [.sign (.char '{'), .word "encodeURIComponent", .sign (.char '(')] := by decide
  have hclosing : Silent [.sign (.char '}')] := by decide
  exact hopening.yields.append ((settles_value name ')' (by decide)).append hclosing.yields)

theorem free_filledLexemes (name : Text) : Free marks (filledLexemes name) := by
  have hvalue := free_marks_valueLexemes name
  exact Free.append (by decide) ((hvalue.append (by decide)).append (by decide))

theorem usedNames_filledLexemes (name : Text) (xs : List Lexeme) :
    usedNames (filledLexemes name ++ xs) =
      Text.ofString "encodeURIComponent" :: "params" :: usedNames xs := by
  unfold filledLexemes valueLexemes
  split <;> rfl

end Expressions

end Client

namespace Endpoint
variable (policy : Name.Policy) (config : Config) (f : Endpoint)

section Address

/-- The placeholders of the path that are filled in. -/
def filledNames (f : Endpoint) : List Text :=
  ((Client.segments f.path).filterMap (·.placeholder)).filter f.fills

/-- How the address is read. -/
def addressLexemes (f : Endpoint) : List Lexeme :=
  f.filledNames.flatMap filledLexemes ++ if f.queryParameters.isEmpty then [] else queryLexemes

theorem readParts_segments (segments : List Segment) :
    readParts (segments.flatMap f.partsOf) =
      some (((segments.filterMap (·.placeholder)).filter f.fills).flatMap filledLexemes) := by
  induction segments with
  | nil => rfl
  | cons s segments ih =>
    obtain ⟨text, placeholder⟩ := s
    have htext : readParts [.text text] = some [] := rfl
    cases placeholder with
    | none => simpa [partsOf] using readParts_append htext ih
    | some name =>
      cases hfills : f.fills name with
      | true =>
        have hfilled := readParts_append htext (readParts_append (readParts_encoded name) ih)
        simpa [partsOf, hfills] using hfilled
      | false =>
        have hkept : readParts [.text (braced name)] = some [] := rfl
        simpa [partsOf, hfills] using readParts_append htext (readParts_append hkept ih)

theorem reads_address :
    Reads (f.hook policy).address (backtick :: (f.addressLexemes ++ [backtick])) := by
  have hurl : (f.hook policy).url.map UrlPart.part =
      (Client.segments f.path).flatMap f.partsOf ++
        if !f.queryParameters.isEmpty then [.expression "query ? '?' + query : ''"] else [] :=
    f.map_part_url _
  refine reads_template (fun _ h => closing_not_mem_of_mem_url h) ?_
  rw [readParts_gather, hurl, addressLexemes]
  refine readParts_append (f.readParts_segments _) ?_
  cases f.queryParameters.isEmpty with
  | true => rfl
  | false => exact readParts_query

theorem yields_addressLexemes :
    Yields f.addressLexemes (f.filledNames.map fun name => .access (accessed name)) := by
  have hfilled (names : List Text) : Yields (names.flatMap filledLexemes)
      (names.map fun name => .access (accessed name)) := by
    induction names with
    | nil => exact yields_nil
    | cons name names ih => exact (yields_filledLexemes name).append ih
  have hquery : Silent (if f.queryParameters.isEmpty then [] else queryLexemes) := by
    split <;> decide
  have hall := (hfilled f.filledNames).append hquery.yields
  rwa [List.append_nil] at hall

theorem free_addressLexemes : Free marks f.addressLexemes := by
  refine Free.append ?_ ?_
  · intro x hx
    obtain ⟨name, -, hx⟩ := List.mem_flatMap.mp hx
    exact free_filledLexemes name x hx
  · split <;> decide

theorem query_mem_usedNames_iff :
    Text.ofString "query" ∈ usedNames f.addressLexemes ↔ f.queryParameters ≠ [] := by
  have hfilled (names : List Text) (xs : List Lexeme) :
      Text.ofString "query" ∈ usedNames (names.flatMap filledLexemes ++ xs) ↔
        Text.ofString "query" ∈ usedNames xs := by
    induction names with
    | nil => rfl
    | cons name names ih =>
      have hother : Text.ofString "query" ∉ [Text.ofString "encodeURIComponent", "params"] := by
        decide
      rw [List.flatMap_cons, List.append_assoc, usedNames_filledLexemes, List.mem_cons,
        List.mem_cons, ih]
      simp_all
  have hquery : Text.ofString "query" ∈ usedNames queryLexemes := by decide
  rw [addressLexemes, hfilled]
  cases f.queryParameters with
  | nil => simp [usedNames]
  | cons p ps => exact iff_of_true hquery (List.cons_ne_nil _ _)

end Address

section Module

theorem isReadable_hook : (f.hook policy).IsReadable where
  imports _ hn := f.isWord_of_mem_typeImports policy hn
  paramsType := f.isWord_paramsType policy
  name := f.isWord_hook
  fields field hfield := by
    obtain ⟨t, ht⟩ := exists_client_of_mem_fields hfield
    exact ⟨_, ht ▸ t.expression_client⟩
  result := by
    have hmem : (f.hook policy).resultType ∈ f.expressions policy :=
      List.mem_append_right _ List.mem_cons_self
    rcases client_of_mem_expressions hmem with hnone | ⟨t, -, ht⟩
    · have hwords : ∀ w ∈ [Text.ofString "null", "void"], w ≠ [] ∧ Over isNamePart w := by decide
      exact tellsBeforeSign_word (hwords _ hnone)
    · exact ht ▸ tellsBeforeSign_type t.expression_client

/-- What a hook says in front of its address. -/
def frontMentions : List Mention :=
  (f.hook policy).openingMentions ++ (f.hook policy).queryMentions ++ [.constant "response"]

theorem mentions_queryKey :
    f.queryKey.flatMap Value.mentions =
      f.clientParameters.map fun p => .access (accessed p.name) := by
  simp [queryKey, Value.mentions, List.map_eq_flatMap, List.flatMap_assoc]

theorem openingMentions_hook :
    (f.hook policy).openingMentions =
      .function (Name.hook f.name) (f.hook policy).firstArgument ::
        (if f.method = .get then f.clientParameters else []).map
          fun p => .access (accessed p.name) := by
  have hread : (f.hook policy).isRead = (f.method == .get) := rfl
  have hkey : (f.hook policy).key = f.queryKey := rfl
  rw [Hook.openingMentions, hread, hkey, mentions_queryKey]
  by_cases hget : f.method = .get <;> simp [hget, hook]

theorem queryMentions_hook :
    (f.hook policy).queryMentions =
      if f.queryParameters.isEmpty then []
      else
        .constant "queryParamsObj" ::
          (f.queryParameters.map fun p => .access (accessed p.name)) ++ [.constant "query"] := by
  simp [Hook.queryMentions, hook, Function.comp_def]

theorem accesses_frontMentions :
    (f.frontMentions policy).filterMap Mention.access? =
      ((if f.method = .get then f.clientParameters else []) ++ f.queryParameters).map
        fun p => accessed p.name := by
  rw [frontMentions, openingMentions_hook, queryMentions_hook]
  cases f.queryParameters <;>
    simp [List.filterMap_cons, List.filterMap_map, Mention.access?, Function.comp_def]

theorem functions_frontMentions :
    (f.frontMentions policy).filterMap Mention.function? =
      [(Name.hook f.name, (f.hook policy).firstArgument)] := by
  rw [frontMentions, openingMentions_hook, queryMentions_hook]
  cases f.queryParameters <;>
    simp [List.filterMap_cons, List.filterMap_map, Mention.function?, Function.comp_def]

theorem query_mem_constants_iff :
    Text.ofString "query" ∈ (f.frontMentions policy).filterMap Mention.constant? ↔
      f.queryParameters ≠ [] := by
  have hresponse : Text.ofString "query" ∉ [Text.ofString "response"] := by decide
  rw [frontMentions, openingMentions_hook, queryMentions_hook]
  cases f.queryParameters <;>
    simp_all [List.filterMap_cons, List.filterMap_map, Mention.constant?, Function.comp_def]

theorem firstArgument_eq :
    (f.hook policy).firstArgument =
      if (f.hook policy).fields = [] then .sign (.char ')') else .word "params" := by
  simp [Hook.firstArgument]

/-- What carries the body is accessed by its name. -/
theorem accessed_bodyField : accessed f.bodyField = f.bodyField := by
  have hbody : Over Identifier.isPart "body" := by decide
  have hover : Over Identifier.isPart f.bodyField := by
    rcases Name.unique_eq .exact (f.clientParameters.map (·.name)) "body" with he | ⟨k, he⟩
    · rwa [bodyField, he]
    · rw [bodyField, he]
      exact Name.over_numbered hbody k
  rw [accessed_eq_self_iff]
  rintro word - he
  exact hover.not_mem (c := '\n') (by decide) (he ▸ List.mem_append_right _ List.mem_cons_self)

/-- What carries the body, if there is one. -/
def bodyKey (f : Endpoint) : List Text :=
  ((nonEmpty? f.requestBody).map fun _ => f.bodyField).toList

/-- The keys that the interface of the parameters is read with. -/
def memberKeys (f : Endpoint) : List Text :=
  f.clientParameters.map (fun p => accessed p.name) ++ f.bodyKey

theorem map_accessed_memberNames : (memberNames f).map accessed = f.memberKeys := by
  rw [memberNames, memberKeys, bodyKey, List.map_append, List.map_map]
  cases nonEmpty? f.requestBody <;> simp [accessed_bodyField, Function.comp_def]

theorem memberKeys_of_no_fields (h : (f.hook policy).fields = []) : f.memberKeys = [] := by
  have hnames : (f.hook policy).fields.map (·.name) = memberNames f :=
    f.names_clientFields policy
  rw [← map_accessed_memberNames, ← hnames, h]
  rfl

theorem accesses_bodyMentions :
    (f.hook policy).bodyMentions.filterMap Mention.access? =
      if f.method = .get then [] else f.bodyKey := by
  have hread : (f.hook policy).isRead = (f.method == .get) := rfl
  have hbody : (f.hook policy).body = (nonEmpty? f.requestBody).map fun _ => f.bodyField := rfl
  rw [Hook.bodyMentions, hread, hbody, bodyKey]
  by_cases hget : f.method = .get
  · simp [hget]
  · cases nonEmpty? f.requestBody <;> simp [hget, Mention.access?, accessed_bodyField]

theorem mem_memberKeys_of_filled {name : Text} (h : name ∈ f.filledNames) :
    accessed name ∈ f.memberKeys := by
  obtain ⟨p, hp, rfl⟩ := List.mem_map.mp (fills_iff.mp (List.mem_filter.mp h).2)
  exact List.mem_append_left _ (List.mem_map.mpr ⟨p, List.mem_append_left _ hp, rfl⟩)

theorem accesses_subset :
    ((if f.method = .get then f.clientParameters else []) ++ f.queryParameters).map
        (fun p => accessed p.name) ++
      (f.filledNames.map accessed ++ if f.method = .get then [] else f.bodyKey) ⊆
    f.memberKeys := by
  intro name hname
  rcases List.mem_append.mp hname with hname | hname
  · obtain ⟨p, hp, rfl⟩ := List.mem_map.mp hname
    have hclient : p ∈ f.clientParameters := by
      rcases List.mem_append.mp hp with hp | hp
      · split at hp
        · exact hp
        · cases hp
      · exact List.mem_append_right _ hp
    exact List.mem_append_left _ (List.mem_map.mpr ⟨p, hclient, rfl⟩)
  · rcases List.mem_append.mp hname with hname | hname
    · obtain ⟨n, hn, rfl⟩ := List.mem_map.mp hname
      exact f.mem_memberKeys_of_filled hn
    · split at hname
      · cases hname
      · exact List.mem_append_right _ hname

/-- Around the one template of a hook module, the members of the parameters that it reads are among
those that the interface of the parameters declares. Without such an interface nothing is read and
the hook has no argument. What carries the body is told from the parameters by their names, though
a line feed at the end of a name is not read. -/
structure ReadsDeclared (policy : Name.Policy) (config : Config) (f : Endpoint)
    (before address after : List Lexeme) : Prop where
  template : backtick ∉ before ∧ backtick ∉ address ∧ backtick ∉ after
  all : accesses (before ++ backtick :: (address ++ backtick :: after)) =
    accesses before ++ (accesses address ++ accesses after)
  front : accesses before =
    ((if f.method = .get then f.clientParameters else []) ++ f.queryParameters).map
      fun p => accessed p.name
  url : accesses address = f.filledNames.map accessed
  body : accesses after = if f.method = .get then [] else f.bodyKey
  bodyField : f.bodyField ∉ f.clientParameters.map (·.name)
  undeclared : (f.hook policy).fields = [] →
    functions before = [(Name.hook f.name, .sign (.char ')'))] ∧
      accesses (before ++ backtick :: (address ++ backtick :: after)) = []
  declared : (f.hook policy).fields ≠ [] →
    functions before = [(Name.hook f.name, .word "params")] ∧
      ∃ block, block <:+: ((f.hook policy).code config).lines ∧
        readInterface (joined "\n" block) = some ((f.hook policy).paramsType, f.memberKeys) ∧
          accesses (before ++ backtick :: (address ++ backtick :: after)) ⊆ f.memberKeys
  query : Text.ofString "query" ∈ usedNames address ↔ Text.ofString "query" ∈ constants before

/-- Every hook module is read to its end around one template, and reads what it declares. -/
theorem accesses_declared : ∃ before address after,
    read ((f.hook policy).text config) =
        some (before ++ backtick :: (address ++ backtick :: after)) ∧
      f.ReadsDeclared policy config before address after := by
  obtain ⟨before, after, hread, hfree, hfree', hbefore, hafter⟩ :=
    (f.hook policy).read_text (f.isReadable_hook policy) (f.reads_address policy) config
  refine ⟨before, f.addressLexemes, after, hread, ?_⟩
  have hurl := f.yields_addressLexemes
  have hall := accesses_template hbefore hurl hafter
  have hfront : accesses before = _ := hbefore.accesses_eq.trans (f.accesses_frontMentions policy)
  have haddress : accesses f.addressLexemes = f.filledNames.map accessed := by
    rw [hurl.accesses_eq, List.filterMap_map]
    exact congrFun List.filterMap_eq_map f.filledNames
  have hbody : accesses after = if f.method = .get then [] else f.bodyKey :=
    hafter.accesses_eq.trans (f.accesses_bodyMentions policy)
  have hfunctions : functions before = [(Name.hook f.name, (f.hook policy).firstArgument)] := by
    rw [functions, hbefore.mentions_eq]
    exact f.functions_frontMentions policy
  have hconstants : constants before = (f.frontMentions policy).filterMap Mention.constant? := by
    rw [constants, hbefore.mentions_eq, frontMentions]
  rw [firstArgument_eq] at hfunctions
  have hsubset : accesses (before ++ backtick :: (f.addressLexemes ++ backtick :: after)) ⊆
      f.memberKeys := by
    rw [hall, hfront, haddress, hbody]
    exact f.accesses_subset
  have hno {xs : List Lexeme} (h : Free marks xs) : backtick ∉ xs :=
    fun hm => h _ hm (by decide)
  constructor
  case template => exact ⟨hno hfree, hno f.free_addressLexemes, hno hfree'⟩
  case all => exact hall
  case front => exact hfront
  case url => exact haddress
  case body => exact hbody
  case bodyField => exact f.bodyField_not_mem
  case undeclared =>
    intro hnone
    rw [memberKeys_of_no_fields policy f hnone] at hsubset
    rw [if_pos hnone] at hfunctions
    exact ⟨hfunctions, List.subset_nil.mp hsubset⟩
  case declared =>
    intro hsome
    obtain ⟨block, hblock, hkeys⟩ := (interface_read policy config f).resolve_left hsome
    rw [map_accessed_memberNames] at hkeys
    rw [if_neg hsome] at hfunctions
    exact ⟨hfunctions, block, hblock, hkeys, hsubset⟩
  case query => rw [query_mem_usedNames_iff, hconstants, query_mem_constants_iff]

/-- A parameter of the path has the name that the body would have. -/
def putBody : Endpoint :=
  { name := "putBody", method := .put, path := "/bodies/\x7bbody\x7d", requestBody := some "Pet",
    responseBody := none, parameters := [⟨"body", .path, true, .string⟩], summary := "" }

example : putBody.filledNames = [Text.ofString "body"] ∧
    putBody.memberKeys = [Text.ofString "body", "body_2"] := by
  decide +kernel

end Module

end Endpoint
end ApiScaffold
