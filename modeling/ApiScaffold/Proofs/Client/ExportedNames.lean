import ApiScaffold.Artifact
import ApiScaffold.Proofs.Client.Declarations
import ApiScaffold.Proofs.Client.Exports
import ApiScaffold.Proofs.Spec.Distinct

namespace ApiScaffold
open Text

/-- The interface of parameters is never named as a hook: it begins with no letter in lower
case. -/
theorem Name.pascal_append_ne_hook (name function : Text) :
    pascal name ++ Text.ofString "Params" ≠ hook function := by
  intro he
  have hhead : (pascal name ++ Text.ofString "Params").head? = some (.char 'u') :=
    congrArg List.head? he
  rw [head?_pascal_append] at hhead
  cases hfirst : name.find? (·.is Char.isAlphanum) with
  | none =>
    rw [hfirst] at hhead
    cases hhead
  | some p =>
    have hp := List.find?_some hfirst
    rw [hfirst] at hhead
    cases p with
    | surrogate n => cases hp
    | char c =>
      have hupper : c.toUpper = 'u' := by simpa [CodePoint.map] using hhead
      have hform := isUpper_or_isDigit_toUpper hp
      rw [hupper] at hform
      revert hform
      decide

namespace Client

/-- The names that a line exports. -/
def exportedNames (line : Text) : List Text :=
  Binder.interface.names line ++ Binder.function.names line

namespace Code

/-- The names that a module exports, in the order of its lines. -/
def exported (c : Code) : List Text :=
  c.named exportedNames

theorem bound_exportedNames : Bound exportedNames := by
  intro line h
  rw [exportedNames, bound_names _ line h, bound_names _ line h]
  rfl

end Code

/-- Only the lines of the interface and of the function export. -/
theorem Hook.exported_code (h : Hook) (config : Config) (hp : IsWord h.paramsType)
    (hn : IsWord h.name) : (h.code config).exported = h.declared := by
  have hlibrary : exportedNames (h.libraryLine config) = [] := by
    rw [exportedNames, h.names_libraryLine config (by simp), h.names_libraryLine config (by simp)]
    rfl
  have htypes : exportedNames (h.typesLine config) = [] := by
    rw [exportedNames, h.names_typesLine config (by simp), h.names_typesLine config (by simp)]
    rfl
  have hinterface : exportedNames h.interfaceLine = [h.paramsType] := by
    have hself := names_opening .interface (h.paramsType ++ " \x7b")
    have hline : Binder.interface.opening ++ (h.paramsType ++ ofString " \x7b") =
        h.interfaceLine := by
      simp [interfaceLine, Binder.opening]
    rw [hline] at hself
    rw [exportedNames, hself, h.names_interfaceLine (by simp), List.append_nil]
    exact boundBy_interface hp
  have hfunction : exportedNames h.functionLine = [h.name] := by
    have hself := names_opening .function (h.name ++ "(" ++ (h.signature ++ ") \x7b"))
    have hline : Binder.function.opening ++ (h.name ++ ofString "(" ++
        (h.signature ++ ofString ") \x7b")) = h.functionLine := by
      simp [functionLine, Binder.opening]
    rw [hline] at hself
    rw [exportedNames, hself, h.names_functionLine (by simp), List.nil_append]
    exact boundBy_function hn _
  rw [Code.exported, h.named_code config Code.bound_exportedNames, hlibrary, htypes, hinterface,
    hfunction, declared]
  simp

end Client

namespace Endpoint
open Client
variable (policy : Name.Policy) (f g : Endpoint)

theorem exported_hook (config : Config) :
    ((f.hook policy).code config).exported = (f.hook policy).declared :=
  (f.hook policy).exported_code config (f.isWord_paramsType policy) f.isWord_hook

theorem nodup_declared : (f.hook policy).declared.Nodup := by
  have hne := f.paramsType_ne_hook policy
  unfold Hook.declared
  split
  · simp
  · simpa [hook] using hne

/-- The modules of two hooks share a name only where they share the name of the hook. -/
theorem disjoint_declared_iff :
    List.Disjoint (f.hook policy).declared (g.hook policy).declared ↔
      Name.hook f.name ≠ Name.hook g.name := by
  have hmem {e : Endpoint} {n : Text} (hn : n ∈ (e.hook policy).declared) :
      n = Name.pascal e.name ++ Text.ofString "Params" ∨ n = Name.hook e.name := by
    rcases List.mem_append.mp hn with hn | hn
    · split at hn
      · cases hn
      · exact .inl (List.mem_singleton.mp hn)
    · exact .inr (List.mem_singleton.mp hn)
  constructor
  · intro h he
    have hf : Name.hook f.name ∈ (f.hook policy).declared :=
      List.mem_append_right _ List.mem_cons_self
    have hg : Name.hook g.name ∈ (g.hook policy).declared :=
      List.mem_append_right _ List.mem_cons_self
    exact h hf (he ▸ hg)
  · intro hne n hf hg
    rcases hmem hf with rfl | rfl <;> rcases hmem hg with he | he
    · exact hne (congrArg (Text.ofString "use" ++ ·) (List.append_cancel_right he))
    · exact Name.pascal_append_ne_hook _ _ he
    · exact Name.pascal_append_ne_hook _ _ he.symm
    · exact hne he

/-- A function that looks for pets. -/
def finder (name : Text) : Endpoint :=
  { name, method := .get, path := "/pets", requestBody := none, responseBody := none,
    parameters := [⟨"q", .query, false, .string⟩], summary := "" }

end Endpoint

namespace Spec
open Client
variable (config : Config) (policy : Name.Policy) (s : Spec)

/-- The names that the modules of the hooks export, one module after the other. -/
def exports : List Text :=
  s.functions.flatMap fun f => ((f.hook policy).code config).exported

theorem exports_eq : s.exports config policy =
    s.functions.flatMap fun f => (f.hook policy).declared := by
  simp only [exports, Endpoint.exported_hook]

theorem nodup_exports_iff : (s.exports config policy).Nodup ↔ s.hookNames.Nodup := by
  rw [exports_eq, List.nodup_flatMap,
    and_iff_right fun f _ => f.nodup_declared policy, hookNames, List.Nodup, List.pairwise_map]
  exact List.Pairwise.iff fun {f g} => f.disjoint_declared_iff policy g

/-- Where nothing collides, no two names are one among all that the modules of the hooks export: a
hook for each function and an interface for each that has parameters or a body. The index exports
every module once, so it gives no name out twice. -/
theorem nodup_exports (h : s.collisions = []) :
    (s.exports config policy = s.functions.flatMap fun f => (f.hook policy).declared) ∧
    (s.exports config policy).Nodup ∧
    reexports (Artifact.ofIndex config s).text = s.hookNames ∧ s.hookNames.Nodup := by
  have hhooks := (s.distinct_iff.mpr h).hooks
  exact ⟨s.exports_eq config policy, (s.nodup_exports_iff config policy).mpr hhooks,
    reexports_indexModule s.over_hookNames, hhooks⟩

/-- Functions whose hooks and interfaces have names that come close to each other. -/
def finders : Spec :=
  ⟨[], [.finder "getPet", .finder "getPet-params", .finder "use get pet", .finder ""]⟩

theorem nodup_exports_finders :
    finders.collisions = [] ∧ (finders.exports .standard .standard).Nodup ∧
    finders.exports .standard .standard =
      ["GetPetParams", "useGetPet", "GetPetParamsParams", "useGetPetParams", "UseGetPetParams",
        "useUseGetPet", "Params", "use"].map Text.ofString := by
  have hnone : finders.collisions = [] := by decide
  obtain ⟨hdeclared, hnodup, -⟩ := finders.nodup_exports .standard .standard hnone
  exact ⟨hnone, hnodup, hdeclared.trans (by decide)⟩

end Spec

namespace Name
variable {name : Text}

/-- The first letter or digit of a name is a digit, so the name in Pascal case begins with it. -/
def OpensWithDigit (name : Text) : Prop :=
  ∃ p ∈ name.find? (·.is Char.isAlphanum), p.is Char.isDigit = true

instance : Decidable (OpensWithDigit name) :=
  inferInstanceAs (Decidable (∃ p ∈ name.find? (·.is Char.isAlphanum), p.is Char.isDigit = true))

theorem is_isDigit_toUpper (p : CodePoint) :
    (p.map Char.toUpper).is Char.isDigit = p.is Char.isDigit := by
  cases p with
  | char c => exact isDigit_toUpper c
  | surrogate n => rfl

end Name

namespace Client

theorem isIdentifier_ofTable (name : Text) : IsIdentifier (Identifier.ofTable name) := by
  refine ⟨isWord_ofTable name, ?_⟩
  obtain ⟨p, hp, hstart⟩ := (Identifier.isName_ofTable name).opens
  intro q hq
  obtain rfl : p = q := Option.some.inj (hp.symm.trans hq)
  cases p with
  | char c => exact Identifier.isDigit_of_isStart hstart
  | surrogate n => cases hstart

theorem isIdentifier_hook (f : Endpoint) : IsIdentifier (Name.hook f.name) := by
  refine ⟨f.isWord_hook, ?_⟩
  intro p hp
  cases hp
  rfl

/-- Nothing is put before a digit that a name in Pascal case begins with. -/
theorem isIdentifier_paramsType_iff (policy : Name.Policy) (f : Endpoint) :
    IsIdentifier (f.hook policy).paramsType ↔ ¬ Name.OpensWithDigit f.name := by
  have hhead : (f.hook policy).paramsType.head? = _ := Name.head?_pascal_append f.name "Params"
  have hopens : (∀ p ∈ (f.hook policy).paramsType.head?, p.is Char.isDigit = false) ↔
      ¬ Name.OpensWithDigit f.name := by
    rw [hhead, Name.OpensWithDigit]
    cases f.name.find? (·.is Char.isAlphanum) with
    | none => decide
    | some p => simp [Name.is_isDigit_toUpper]
  rw [← hopens]
  exact ⟨IsIdentifier.opens, fun h => ⟨f.isWord_paramsType policy, h⟩⟩

end Client

namespace Spec
open Client
variable (config : Config) (policy : Name.Policy) (s : Spec)

/-- All names that the client code declares: the interfaces of the tables, then what the modules of
the hooks export. -/
def clientNames : List Text :=
  declaredIn (typesModule s.tables) ++ s.exports config policy

theorem isIdentifier_of_mem_types {n : Text} (h : n ∈ declaredIn (typesModule s.tables)) :
    IsIdentifier n := by
  rw [declaredIn_typesModule] at h
  obtain ⟨t, -, rfl⟩ := List.mem_map.mp h
  exact isIdentifier_ofTable t.name

theorem isIdentifier_of_mem_hookNames {n : Text} (h : n ∈ s.hookNames) : IsIdentifier n := by
  obtain ⟨f, -, rfl⟩ := List.mem_map.mp h
  exact isIdentifier_hook f

theorem forall_exports_iff {P : Text → Prop} :
    (∀ n ∈ s.exports config policy, P n) ↔
      ∀ f ∈ s.functions,
        ((f.hook policy).fields ≠ [] → P (f.hook policy).paramsType) ∧ P (Name.hook f.name) := by
  rw [exports_eq, List.forall_mem_flatMap]
  refine forall₂_congr fun f _ => ?_
  unfold Hook.declared
  cases (f.hook policy).fields <;> simp [Endpoint.hook]

theorem forall_isIdentifier_clientNames_iff :
    (∀ n ∈ s.clientNames config policy, IsIdentifier n) ↔
      ∀ f ∈ s.functions, (f.hook policy).fields ≠ [] → ¬ Name.OpensWithDigit f.name := by
  rw [clientNames, List.forall_mem_append,
    and_iff_right fun n hn => s.isIdentifier_of_mem_types hn, forall_exports_iff]
  refine forall₂_congr fun f _ => ?_
  rw [and_iff_left (isIdentifier_hook f), isIdentifier_paramsType_iff]

end Spec
end ApiScaffold
