import ApiScaffold.Proofs.Client.ExportedNames
import ApiScaffold.Proofs.Document.Single

namespace ApiScaffold.Document
open Client

section Names
variable {d : Document} {o : Operation} {f : Endpoint}

/-- A function is called as its operation says, or after its method and path. -/
theorem name_of_endpoint (h : (o.endpoint d).result = .ok f) :
    f.name = (nonEmpty? (o.value.get "operationId").str?).getD
      (functionName o.method.name o.path) := by
  obtain ⟨raw, -, h⟩ := Traced.ok_of_bind h
  obtain ⟨parameters, -, h⟩ := Traced.ok_of_bind h
  obtain ⟨request, -, h⟩ := Traced.ok_of_bind h
  obtain ⟨response, -, h⟩ := Traced.ok_of_bind h
  cases h
  rfl

/-- The method opens the name that is made of a path, and it is a word. -/
theorem not_opensWithDigit_functionName (method : Method) (path : Text) :
    ¬ Name.OpensWithDigit (functionName method.name path) := by
  have hmethod : ∃ p ∈ (Text.lower method.name).find? (·.is Char.isAlphanum),
      p.is Char.isDigit = false := by
    cases method <;> decide
  obtain ⟨p, hp, hdigit⟩ := hmethod
  rintro ⟨q, hq, hq'⟩
  rw [functionName, List.find?_append, hp, Option.some_or] at hq
  obtain rfl : p = q := Option.some.inj hq
  cases hdigit.symm.trans hq'

/-- A digit that opens the name of a function comes from the operation. -/
theorem operationId_of_opensWithDigit (h : (o.endpoint d).result = .ok f)
    (hdigit : Name.OpensWithDigit f.name) :
    (o.value.get "operationId").str? = some f.name := by
  have hname := name_of_endpoint h
  cases hid : nonEmpty? (o.value.get "operationId").str? with
  | none =>
    rw [hid] at hname
    rw [hname] at hdigit
    exact absurd hdigit (not_opensWithDigit_functionName _ _)
  | some id =>
    rw [hid] at hname
    obtain rfl : f.name = id := hname
    exact (nonEmpty?_eq_some_iff.mp hid).1

end Names

/-- The interfaces of tables and the hooks of an accepted document may be declared under their
names, whatever the document calls its entities and operations. So may the interfaces of
parameters, except those of an operation whose own name begins with a digit. -/
theorem isIdentifier_clientNames_iff {policy : Name.Policy} {root : Tree} {s : Spec}
    (h : (spec policy root).result = .ok s) (config : Config) :
    (∀ n ∈ declaredIn (typesModule s.tables) ++ s.hookNames, IsIdentifier n) ∧
    ((∀ n ∈ s.clientNames config policy, IsIdentifier n) ↔
      ∀ f ∈ s.functions, (f.hook policy).fields ≠ [] → ¬ Name.OpensWithDigit f.name) ∧
    ∀ f ∈ s.functions, Name.OpensWithDigit f.name →
      ∃ o, Declares ⟨root⟩ o ∧ (o.endpoint ⟨root⟩).result = .ok f ∧
        (o.value.get "operationId").str? = some f.name := by
  refine ⟨?_, s.forall_isIdentifier_clientNames_iff config policy, ?_⟩
  · rw [List.forall_mem_append]
    exact ⟨fun n hn => s.isIdentifier_of_mem_types hn,
      fun n hn => s.isIdentifier_of_mem_hookNames hn⟩
  · intro f hf hdigit
    obtain ⟨o, ho, hf⟩ := (parsed_of_spec h).mem_functions_iff.mp hf
    exact ⟨o, ho, hf, operationId_of_opensWithDigit hf hdigit⟩

/-- An operation of a name that looks for pets. -/
def finding (id : Text) : Operation :=
  ⟨.get, "/pets", .map [(.str "operationId", .str id),
    (.str "parameters", .list [placed "q" "query"])], .null⟩

theorem endpoint_finding (d : Document) {id : Text} (hid : nonEmpty? (some id) = some id) :
    ((finding id).endpoint d).result = .ok (.finder id) := by
  have hname : nonEmpty? ((finding id).value.get "operationId").str? = some id := hid
  unfold Operation.endpoint endpoint
  rw [hname]
  rfl

/-- A description of one entity and the operation. -/
def findable (id : Text) : Tree :=
  single "Pet" (.map []) (finding id)

theorem spec_findable {id : Text} (hid : nonEmpty? (some id) = some id)
    (hc : (Spec.mk [⟨"Pet", []⟩] [.finder id]).collisions = []) :
    (spec .standard (findable id)).result = .ok ⟨[⟨"Pet", []⟩], [.finder id]⟩ :=
  spec_single rfl rfl (result_table_empty _ _ _) (endpoint_finding _ hid) hc

/-- A digit behind the first letter does no harm. -/
theorem isIdentifier_clientNames_findable :
    (spec .standard (findable "-pets 2nd")).result =
        .ok ⟨[⟨"Pet", []⟩], [.finder "-pets 2nd"]⟩ ∧
      (Spec.mk [⟨"Pet", []⟩] [.finder "-pets 2nd"]).clientNames .standard .standard =
        ["Pet", "Pets2ndParams", "usePets2nd"].map Text.ofString ∧
      ∀ n ∈ (Spec.mk [⟨"Pet", []⟩] [.finder "-pets 2nd"]).clientNames .standard .standard,
        IsIdentifier n := by
  have hspec : (spec .standard (findable "-pets 2nd")).result =
      .ok ⟨[⟨"Pet", []⟩], [.finder "-pets 2nd"]⟩ := spec_findable (by decide) (by decide)
  obtain ⟨-, hnames, -⟩ := isIdentifier_clientNames_iff hspec .standard
  refine ⟨hspec, ?_, hnames.mpr ?_⟩
  · rw [Spec.clientNames, declaredIn_typesModule, Spec.exports_eq]
    decide
  · intro f hf _
    obtain rfl := List.mem_singleton.mp hf
    decide

/-- The interface of the parameters of `2pets` begins with the digit. -/
theorem not_isIdentifier_findable :
    (spec .standard (findable "2pets")).result = .ok ⟨[⟨"Pet", []⟩], [.finder "2pets"]⟩ ∧
      Text.ofString "2petsParams" ∈
        (Spec.mk [⟨"Pet", []⟩] [.finder "2pets"]).clientNames .standard .standard ∧
      ¬ IsIdentifier (Text.ofString "2petsParams") := by
  refine ⟨spec_findable (by decide) (by decide), ?_, by decide⟩
  rw [Spec.clientNames, declaredIn_typesModule, Spec.exports_eq]
  decide

end ApiScaffold.Document
