import ApiScaffold.Proofs.Client.Bindings
import ApiScaffold.Proofs.DataType.Mentions
import ApiScaffold.Proofs.Name.Letters

namespace ApiScaffold
open Text

namespace Client

/-- What identifiers are made of may stand in a name. -/
theorem isWord_of_over {t : Text} (hne : t ≠ []) (h : Over Identifier.isPart t) : IsWord t := by
  refine ⟨hne, h.mono ?_⟩
  intro c hc
  simp only [Identifier.isPart, isNamePart, Bool.or_eq_true] at hc ⊢
  exact .inl hc

theorem boundBy_of_mem_docComment {s line : Text} (h : line ∈ docComment s) :
    boundBy line = [] := by
  have hmark (mark t : Text) (hm : mark ∈ [Text.ofString "/** ", " * ", " */", "/**"]) :
      boundBy (mark ++ t) = [] := by
    apply boundBy_eq_nil
    intro c hc
    simp only [List.mem_cons, List.not_mem_nil, or_false] at hm
    rcases hm with rfl | rfl | rfl | rfl <;> (cases hc; decide)
  unfold docComment at h
  split at h
  · cases h
  · obtain rfl := List.mem_singleton.mp h
    rw [List.append_assoc]
    exact hmark _ _ (by decide)
  · simp only [List.mem_cons, List.mem_append, List.not_mem_nil, or_false, List.mem_map] at h
    rcases h with rfl | ⟨t, -, rfl⟩ | rfl
    · exact hmark "/**" [] (by decide)
    · exact hmark " * " t (by decide)
    · exact hmark " */" [] (by decide)

namespace Hook
open Code
variable (h : Hook) {names : Text → List Text}

/-- The lines of the module. A path may hold line breaks, and its template literal keeps them, so
the text of the module can have more lines than were written. -/
def code (config : Config) : Code :=
  h.function (h.interface (h.header config .empty))

/-- The names that the module exports. -/
def declared : List Text :=
  (if h.fields.isEmpty then [] else [h.paramsType]) ++ [h.name]

theorem inner_queryString : Inner h.queryString := by
  unfold queryString
  split
  · exact Inner.id
  · exact Inner.id.line.line

theorem inner_fetch : Inner h.fetch := by
  unfold fetch
  split
  · exact Inner.id.line
  · cases h.body with
    | none => exact Inner.id.line.block
    | some field => exact Inner.id.line.line.line.block

theorem inner_failure : Inner failure :=
  Inner.id.line.block

theorem inner_request : Inner fun c => h.result (failure (h.fetch (h.queryString c))) :=
  (inner_failure.comp (h.inner_fetch.comp h.inner_queryString)).line

theorem isWord_libraryHook : IsWord h.libraryHook := by
  unfold libraryHook
  split <;> exact ⟨by decide, by decide⟩

theorem boundBy_importValue {name package : Text} (hn : IsWord name) :
    boundBy ("import \x7b " ++ name ++ " \x7d from " ++ package ++ ";") = [name] := by
  have hline := boundBy_name .importValue hn (.inr rfl) (" from " ++ package ++ ";")
  simpa [Binder.opening, Binder.closing, ofString, ofChars] using hline

theorem boundBy_importType {names : List Text} {package : Text} (hn : ∀ n ∈ names, IsWord n) :
    boundBy ("import type \x7b " ++ joined ", " names ++ " \x7d from " ++ package ++ ";") =
      names := by
  have hline := boundBy_line .importType hn (.inr rfl) (" from " ++ package ++ ";")
  simpa [Binder.opening, Binder.closing, ofString, ofChars] using hline

theorem boundBy_interface {name : Text} (hn : IsWord name) :
    boundBy ("export interface " ++ name ++ " \x7b") = [name] := by
  have hline := boundBy_name .interface hn (.inr rfl) []
  simpa [Binder.opening, Binder.closing, ofString, ofChars] using hline

theorem boundBy_function {name : Text} (hn : IsWord name) (rest : Text) :
    boundBy ("export function " ++ name ++ "(" ++ rest) = [name] := by
  have hline := boundBy_name .function hn (.inl rfl) rest
  simpa [Binder.opening, Binder.closing, ofString, ofChars] using hline

/-- The line that imports the hook of the library. -/
def libraryLine (config : Config) : Text :=
  "import \x7b " ++ h.libraryHook ++ " \x7d from " ++ literal config.queryPackage ++ ";"

/-- The line that imports the interfaces. -/
def typesLine (config : Config) : Text :=
  "import type \x7b " ++ joined ", " h.imports ++ " \x7d from " ++ literal config.typesImport ++ ";"

def interfaceLine : Text :=
  "export interface " ++ h.paramsType ++ " \x7b"

def functionLine : Text :=
  "export function " ++ h.name ++ "(" ++ (h.signature ++ ") \x7b")

theorem named_header (config : Config) (hn : Bound names) :
    (h.header config .empty).level = 0 ∧
      (h.header config .empty).named names = names (h.libraryLine config) ++
        if h.imports.isEmpty then [] else names (h.typesLine config) := by
  unfold header
  split
  · refine ⟨rfl, ?_⟩
    rw [named_line_blank hn rfl, named_line_top rfl, List.append_nil]
    rfl
  · refine ⟨rfl, ?_⟩
    rw [named_line_blank hn rfl, named_line_top rfl, named_line_top rfl]
    rfl

theorem named_interface {c : Code} (hc : c.level = 0) (hn : Bound names) :
    (h.interface c).level = 0 ∧
      (h.interface c).named names =
        c.named names ++ if h.fields.isEmpty then [] else names h.interfaceLine := by
  unfold interface
  split
  · exact ⟨hc, (List.append_nil _).symm⟩
  · have hclosing : boundBy "\x7d" = [] := by decide
    obtain ⟨hl, hb⟩ := named_block_top h.interfaceLine hclosing hn hc
      (Inner.lineAll (h.fields.map Field.code))
    exact ⟨hl, (named_line_blank hn hl).trans hb⟩

theorem inner_declaration : Inner fun c =>
    let c := c.enter ("return " ++ h.libraryHook ++ "<" ++ h.resultType ++ ">(\x7b")
    let c :=
      if h.isRead then
        (c.line ("queryKey: " ++ arrayLiteral (h.key.map Value.code) ++ ",")).enter
          "queryFn: async () => \x7b"
      else c.enter "mutationFn: async () => \x7b"
    ((h.result (failure (h.fetch (h.queryString c)))).leave "\x7d,").leave "\x7d);" := by
  cases h.isRead with
  | true => exact (h.inner_request.block.comp Inner.id.line).block
  | false => exact h.inner_request.block.block

theorem named_function {c : Code} (hc : c.level = 0) (hn : Bound names) :
    (h.function c).named names = c.named names ++ names h.functionLine := by
  have hcomment : ∀ line ∈ docComment h.summary, boundBy line = [] :=
    fun line hline => boundBy_of_mem_docComment hline
  obtain ⟨hl, hb⟩ := named_lineAll_top hn hc hcomment
  have hclosing : boundBy "\x7d" = [] := by decide
  obtain ⟨-, hblock⟩ := named_block_top h.functionLine hclosing hn hl h.inner_declaration
  rw [hb] at hblock
  simpa [function, functionLine] using hblock

/-- Only the lines that import and export name anything. -/
theorem named_code (config : Config) (hn : Bound names) :
    (h.code config).named names =
      names (h.libraryLine config) ++
        ((if h.imports.isEmpty then [] else names (h.typesLine config)) ++
          ((if h.fields.isEmpty then [] else names h.interfaceLine) ++ names h.functionLine)) := by
  obtain ⟨hl, hb⟩ := h.named_header config hn
  obtain ⟨hl', hb'⟩ := h.named_interface hl hn
  calc (h.code config).named names
      = (h.interface (h.header config .empty)).named names ++ names h.functionLine :=
        h.named_function hl' hn
    _ = _ := by rw [hb', hb, List.append_assoc, List.append_assoc]

/-- Read off the written lines: the hook of the library, the types, then what is exported. -/
theorem bound_code (config : Config) (hi : ∀ n ∈ h.imports, IsWord n) (hp : IsWord h.paramsType)
    (hn : IsWord h.name) :
    (h.code config).bound = h.libraryHook :: (h.imports ++ h.declared) := by
  have htypes : (if h.imports.isEmpty then [] else boundBy (h.typesLine config)) = h.imports := by
    split
    · rename_i he
      rw [List.isEmpty_iff.mp he]
    · exact boundBy_importType hi
  have hlibrary : boundBy (h.libraryLine config) = [h.libraryHook] :=
    boundBy_importValue h.isWord_libraryHook
  have hinterface : boundBy h.interfaceLine = [h.paramsType] := boundBy_interface hp
  have hfunction : boundBy h.functionLine = [h.name] := boundBy_function hn _
  have hcode := h.named_code config bound_boundBy
  rw [htypes, hlibrary, hinterface, hfunction] at hcode
  exact hcode

end Hook

end Client

namespace Endpoint
open Client
variable (policy : Name.Policy) (f : Endpoint)

/-- The entities that the types of the endpoint refer to. -/
def entities : List Text :=
  (f.clientTypes policy).flatMap DataType.entities

theorem mem_typeImports {policy : Name.Policy} {f : Endpoint} {n : Text} :
    n ∈ f.typeImports policy ↔ n ≠ [] ∧ ∃ e ∈ f.entities policy, Identifier.clean "" e = n := by
  unfold typeImports entities
  have hempty : Text.ofString "" = [] := rfl
  rw [DataType.mem_addNames, List.mem_filter, List.mem_map, and_comm, hempty]
  simp

theorem nodup_typeImports : (f.typeImports policy).Nodup :=
  DataType.nodup_addNames List.nodup_nil

theorem isWord_of_mem_typeImports {n : Text} (h : n ∈ f.typeImports policy) : IsWord n := by
  obtain ⟨hne, e, -, rfl⟩ := mem_typeImports.mp h
  exact isWord_of_over hne (Identifier.over_clean (by decide))

theorem over_isNamePart_pascal : Over isNamePart (Name.pascal f.name) := by
  apply (Name.over_pascal f.name).mono
  intro c hc
  simp [isNamePart, hc]

theorem isWord_hook : IsWord (Name.hook f.name) :=
  ⟨by simp [Name.hook, ofString, ofChars], Over.append (by decide) f.over_isNamePart_pascal⟩

theorem isWord_paramsType : IsWord (f.hook policy).paramsType :=
  ⟨by simp [hook, ofString, ofChars], f.over_isNamePart_pascal.append (by decide)⟩

theorem paramsType_ne_hook : (f.hook policy).paramsType ≠ Name.hook f.name := by
  intro he
  have hlength := congrArg List.length he
  simp [hook, Name.hook, ofString, ofChars] at hlength

theorem paramsType_ne_libraryHook :
    (f.hook policy).paramsType ≠ (f.hook policy).libraryHook := by
  intro he
  have hlast := congrArg List.getLast? he
  unfold Hook.libraryHook hook at hlast
  split at hlast <;> simp [ofString, ofChars] at hlast

theorem nodup_libraryHook_declared_iff :
    ((f.hook policy).libraryHook :: (f.hook policy).declared).Nodup ↔
      Name.hook f.name ≠ (f.hook policy).libraryHook := by
  have hhook := f.paramsType_ne_hook policy
  have hlibrary := f.paramsType_ne_libraryHook policy
  have hname : (f.hook policy).name = Name.hook f.name := rfl
  unfold Hook.declared
  rw [hname]
  split
  · simp [eq_comm]
  · simp [hhook, hlibrary.symm, eq_comm]

theorem ne_nil_of_mem_libraryHook_declared {n : Text}
    (h : n ∈ (f.hook policy).libraryHook :: (f.hook policy).declared) : n ≠ [] := by
  rcases List.mem_cons.mp h with rfl | h
  · exact (f.hook policy).isWord_libraryHook.1
  · rcases List.mem_append.mp h with h | h
    · split at h
      · cases h
      · obtain rfl := List.mem_singleton.mp h
        exact (f.isWord_paramsType policy).1
    · obtain rfl := List.mem_singleton.mp h
      exact f.isWord_hook.1

theorem forall_typeImports_iff {own : List Text} (hown : ∀ n ∈ own, n ≠ []) :
    (∀ n ∈ f.typeImports policy, n ∉ own) ↔
      ∀ e ∈ f.entities policy, Identifier.clean "" e ∉ own := by
  constructor
  · intro h e he hm
    exact h _ (mem_typeImports.mpr ⟨hown _ hm, e, he, rfl⟩) hm
  · intro h n hn
    obtain ⟨-, e, he, rfl⟩ := mem_typeImports.mp hn
    exact h e he

theorem bound_hook (config : Config) :
    ((f.hook policy).code config).bound =
      (f.hook policy).libraryHook :: (f.typeImports policy ++ (f.hook policy).declared) :=
  (f.hook policy).bound_code config (fun _ hn => f.isWord_of_mem_typeImports policy hn)
    (f.isWord_paramsType policy) f.isWord_hook

/-- The module binds the hook of the library, the imported types, the interface of its parameters,
if it has any, and the hook itself. No two of these names are the same just when the hook is not
named as that of the library and no entity cleans up to a name that is bound otherwise. -/
theorem nodup_bound_iff (config : Config) :
    (f.hook policy).text config = ((f.hook policy).code config).text ∧
    ((f.hook policy).code config).bound =
      (f.hook policy).libraryHook :: (f.typeImports policy ++ (f.hook policy).declared) ∧
    (((f.hook policy).code config).bound.Nodup ↔
      Name.hook f.name ≠ (f.hook policy).libraryHook ∧
      ∀ e ∈ f.entities policy,
        Identifier.clean "" e ∉ (f.hook policy).libraryHook :: (f.hook policy).declared) := by
  refine ⟨rfl, f.bound_hook policy config, ?_⟩
  -- An entity that cleans up to nothing is not imported, and nothing is bound as nothing.
  have hnonempty : ∀ n ∈ (f.hook policy).libraryHook :: (f.hook policy).declared, n ≠ [] :=
    fun n hn => f.ne_nil_of_mem_libraryHook_declared policy hn
  rw [bound_hook, ← List.perm_middle.nodup_iff, List.nodup_append', List.disjoint_left,
    and_iff_right (f.nodup_typeImports policy), nodup_libraryHook_declared_iff,
    f.forall_typeImports_iff policy hnonempty]

/-- The entity that `createPet` takes is named as the interface of its parameters. -/
def createPet : Endpoint :=
  { name := "createPet", method := .post, path := "/pets", requestBody := some "CreatePetParams",
    responseBody := none, parameters := [], summary := "" }

theorem not_nodup_bound_createPet :
    ¬ ((createPet.hook .standard).code .standard).bound.Nodup := by
  rw [bound_hook]
  decide

end Endpoint
end ApiScaffold
