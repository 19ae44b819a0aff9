import ApiScaffold.Proofs.Client.Declarations
import ApiScaffold.Proofs.Spec.Distinct

namespace ApiScaffold
open Client

namespace Endpoint
variable {policy : Name.Policy} {f : Endpoint} {t : DataType} {e : Text}

/-- The bodies of a function that count as such. -/
def bodies (f : Endpoint) : List Text :=
  [f.requestBody, f.responseBody].filterMap nonEmpty?

/-- The type expressions that the hook of a function writes. -/
def expressions (policy : Name.Policy) (f : Endpoint) : List Text :=
  (f.hook policy).fields.map (·.type) ++ [(f.hook policy).resultType]

theorem mem_clientTypes :
    t ∈ f.clientTypes policy ↔
      (∃ p ∈ f.clientParameters, p.type = t) ∨ ∃ body ∈ f.bodies, .ofName policy body = t := by
  simp [clientTypes, bodies]

theorem mem_bodies {body : Text} :
    body ∈ f.bodies ↔ nonEmpty? f.requestBody = some body ∨ nonEmpty? f.responseBody = some body := by
  simp only [bodies, List.mem_filterMap, List.mem_cons, List.not_mem_nil, or_false,
    exists_eq_or_imp, exists_eq_left]

theorem client_of_body {body : Text} (h : body ∈ f.bodies) :
    ∃ t ∈ f.clientTypes policy, t.client = (DataType.ofName policy body).client :=
  ⟨_, mem_clientTypes.mpr (.inr ⟨body, h, rfl⟩), rfl⟩

/-- What a hook writes as a type is one of its types, unless nothing is returned. -/
theorem client_of_mem_expressions {x : Text} (h : x ∈ f.expressions policy) :
    x ∈ [Text.ofString "null", "void"] ∨ ∃ t ∈ f.clientTypes policy, t.client = x := by
  have hparameter {p : Parameter} (hp : p ∈ f.clientParameters) :
      ∃ t ∈ f.clientTypes policy, t.client = p.type.client :=
    ⟨_, mem_clientTypes.mpr (.inl ⟨p, hp, rfl⟩), rfl⟩
  rcases List.mem_append.mp h with h | h
  · obtain ⟨field, hfield, rfl⟩ := List.mem_map.mp h
    right
    simp only [hook, clientFields, List.mem_append, List.mem_map, Option.mem_toList,
      Option.map_eq_some_iff] at hfield
    rcases hfield with (⟨p, hp, rfl⟩ | ⟨p, hp, rfl⟩) | ⟨body, hbody, rfl⟩
    · exact hparameter (List.mem_append_left _ hp)
    · exact hparameter (List.mem_append_right _ hp)
    · exact client_of_body (mem_bodies.mpr (.inl hbody))
  · obtain rfl := List.mem_singleton.mp h
    cases hbody : nonEmpty? f.responseBody with
    | some body =>
      simp only [hook, resultType, hbody]
      exact .inr (client_of_body (mem_bodies.mpr (.inr hbody)))
    | none =>
      left
      simp only [hook, resultType, hbody]
      split <;> decide

theorem mem_parameters {p : Parameter} (h : p ∈ f.clientParameters) : p ∈ f.parameters := by
  rcases List.mem_append.mp h with h | h
  · exact List.mem_of_mem_filter h
  · exact List.mem_of_mem_filter h

theorem importedTypes_eq (policy : Name.Policy) (config : Config) (f : Endpoint) :
    ((f.hook policy).code config).importedTypes = f.typeImports policy :=
  (f.hook policy).importedTypes_code config fun _ hn => f.isWord_of_mem_typeImports policy hn

/-- Every entity of the types is imported once, if anything is left of its name. -/
theorem count_importedTypes (config : Config) (ht : t ∈ f.clientTypes policy) (he : t.Mentions e)
    (hne : Identifier.clean "" e ≠ []) :
    ((f.hook policy).code config).importedTypes.count (Identifier.clean "" e) = 1 := by
  have hmem : e ∈ f.entities policy :=
    List.mem_flatMap.mpr ⟨t, ht, (DataType.mem_entities_iff t).mpr he⟩
  have himport : Identifier.clean "" e ∈ f.typeImports policy :=
    mem_typeImports.mpr ⟨hne, e, hmem, rfl⟩
  rw [importedTypes_eq]
  exact List.count_eq_one_of_mem (f.nodup_typeImports policy) himport

end Endpoint

namespace Spec
variable {policy : Name.Policy} {s : Spec} {e : Text}

def entityNames (s : Spec) : List Text :=
  s.tables.map (·.name)

/-- Every entity that a column, a parameter or a body refers to is a table. -/
structure Closed (policy : Name.Policy) (s : Spec) : Prop where
  columns : ∀ t ∈ s.tables, ∀ c ∈ t.columns, ∀ e, c.type.Mentions e → e ∈ s.entityNames
  parameters : ∀ f ∈ s.functions, ∀ p ∈ f.parameters, ∀ e, p.type.Mentions e → e ∈ s.entityNames
  bodies : ∀ f ∈ s.functions, ∀ body ∈ f.bodies, ∀ base, DataType.BaseName body base →
    policy.isEntity base = true → base ∈ s.entityNames

/-- The types have an interface for the entity, and as many of its name as there are tables whose
names clean up to the same. -/
structure Declares (s : Spec) (e : Text) : Prop where
  own : ∃ t ∈ s.tables, t.name = e ∧ declaredIn (interfaceText t) = [Identifier.clean "" e]
  count : (declaredIn (typesModule s.tables)).count (Identifier.clean "" e) =
    s.tables.countP fun t => Identifier.ofTable t.name == Identifier.clean "" e
  once : s.collisions = [] →
    (declaredIn (typesModule s.tables)).count (Identifier.clean "" e) = 1

theorem declares_of_mem (h : e ∈ s.entityNames) (hne : Identifier.clean "" e ≠ []) :
    s.Declares e := by
  obtain ⟨t, ht, rfl⟩ := List.mem_map.mp h
  have hname : Identifier.ofTable t.name = Identifier.clean "" t.name := by
    rw [Identifier.ofTable, Identifier.clean_eq_ite, if_neg hne]
  refine ⟨⟨t, ht, rfl, ?_⟩, ?_, ?_⟩
  · rw [declaredIn_interfaceText, hname]
  · rw [declaredIn_typesModule, List.count, List.countP_map]
    rfl
  · intro hcollisions
    have hdistinct := s.distinct_iff.mpr hcollisions
    rw [declaredIn_typesModule, ← hname]
    exact List.count_eq_one_of_mem hdistinct.tables (List.mem_map.mpr ⟨t, ht, rfl⟩)

theorem Closed.mem_of_clientTypes (h : s.Closed policy) {f : Endpoint} (hf : f ∈ s.functions)
    {t : DataType} (ht : t ∈ f.clientTypes policy) (he : t.Mentions e) : e ∈ s.entityNames := by
  rcases Endpoint.mem_clientTypes.mp ht with ⟨p, hp, rfl⟩ | ⟨body, hbody, rfl⟩
  · exact h.parameters f hf p (Endpoint.mem_parameters hp) e he
  · obtain ⟨hbase, hentity⟩ := DataType.mentions_ofName.mp he
    exact h.bodies f hf body hbody e hbase hentity

/-- Where every entity is a table, the types declare all interfaces that are written in the types
or in a hook, and every hook imports its own once. -/
theorem declares_of_closed (config : Config) (h : s.Closed policy) :
    (∀ t ∈ s.tables, ∀ c ∈ t.columns,
      DataType.Expression c.type.Mentions c.type.client ∧
        ∀ e, c.type.Mentions e → Identifier.clean "" e ≠ [] → s.Declares e) ∧
    ∀ f ∈ s.functions,
      (∀ x ∈ f.expressions policy, x ∈ [Text.ofString "null", "void"] ∨
        ∃ t ∈ f.clientTypes policy, DataType.Expression t.Mentions x) ∧
      ∀ t ∈ f.clientTypes policy, ∀ e, t.Mentions e → Identifier.clean "" e ≠ [] →
        s.Declares e ∧
          ((f.hook policy).code config).importedTypes.count (Identifier.clean "" e) = 1 := by
  refine ⟨?_, ?_⟩
  · intro t ht c hc
    refine ⟨c.type.expression_client, ?_⟩
    intro e he hne
    exact declares_of_mem (h.columns t ht c hc e he) hne
  · intro f hf
    refine ⟨?_, ?_⟩
    · intro x hx
      rcases Endpoint.client_of_mem_expressions hx with hx | ⟨t, ht, rfl⟩
      · exact .inl hx
      · exact .inr ⟨t, ht, t.expression_client⟩
    · intro t ht e he hne
      exact ⟨declares_of_mem (h.mem_of_clientTypes hf ht he) hne,
        Endpoint.count_importedTypes config ht he hne⟩

section Examples

def column (name entity : Text) : Column :=
  ⟨name, .array (.reference entity), false, false⟩

/-- Pets can be filtered by their owner. -/
def filterPets : Endpoint :=
  { name := "filterPets", method := .get, path := "/pets",
    parameters := [⟨"owner", .query, false, .reference "Owner"⟩],
    requestBody := none, responseBody := some "Pet[]", summary := "" }

def petsAndOwners : Spec :=
  ⟨[⟨"Pet", [column "friends" "Pet"]⟩, ⟨"Owner", [column "pets" "Pet"]⟩], [filterPets]⟩

theorem mentions_reference {name : Text} : (DataType.reference name).Mentions e ↔ e = name := by
  rw [← DataType.mem_entities_iff, DataType.entities, List.mem_singleton]

theorem mentions_column {name entity : Text} :
    (column name entity).type.Mentions e ↔ e = entity := by
  rw [column, DataType.mentions_array, mentions_reference]

theorem closed_petsAndOwners : petsAndOwners.Closed .standard := by
  refine ⟨?_, ?_, ?_⟩
  · intro t ht c hc e he
    have hpet : e = Text.ofString "Pet" := by
      simp only [petsAndOwners, List.mem_cons, List.not_mem_nil, or_false] at ht
      rcases ht with rfl | rfl
      · obtain rfl := List.mem_singleton.mp hc
        exact mentions_column.mp he
      · obtain rfl := List.mem_singleton.mp hc
        exact mentions_column.mp he
    rw [hpet]
    decide
  · intro f hf p hp e he
    obtain rfl := List.mem_singleton.mp hf
    obtain rfl := List.mem_singleton.mp hp
    obtain rfl := mentions_reference.mp he
    decide
  · intro f hf body hbody base hbase _
    obtain rfl := List.mem_singleton.mp hf
    obtain rfl := List.mem_singleton.mp hbody
    rw [DataType.baseName_iff.mp hbase]
    decide

theorem declares_petsAndOwners :
    petsAndOwners.Closed .standard ∧ petsAndOwners.Declares "Owner" ∧
      ((filterPets.hook .standard).code .standard).importedTypes.count (Text.ofString "Owner") = 1 := by
  have howner : DataType.reference "Owner" ∈ filterPets.clientTypes .standard := List.mem_cons_self
  have hdeclares := (declares_of_closed .standard closed_petsAndOwners).2 filterPets
    List.mem_cons_self
  exact ⟨closed_petsAndOwners, hdeclares.2 _ howner "Owner" .reference (by decide)⟩

/-- Two tables whose names clean up to the same. -/
def twoPets : Spec :=
  ⟨[⟨"Pet", [column "friends" "Pet"]⟩, ⟨"P-et", []⟩], []⟩

theorem not_declared_once_twoPets :
    twoPets.Closed .standard ∧ (∃ t ∈ twoPets.tables, ∃ c ∈ t.columns, c.type.Mentions "Pet") ∧
      declaredIn (typesModule twoPets.tables) = ["Pet", "Pet"] := by
  refine ⟨⟨?_, ?_, ?_⟩, ?_, ?_⟩
  · intro t ht c hc e he
    simp only [twoPets, List.mem_cons, List.not_mem_nil, or_false] at ht
    rcases ht with rfl | rfl
    · obtain rfl := List.mem_singleton.mp hc
      obtain rfl := mentions_column.mp he
      decide
    · cases hc
  · intro f hf
    cases hf
  · intro f hf
    cases hf
  · exact ⟨_, List.mem_cons_self, _, List.mem_cons_self, .array .reference⟩
  · rw [declaredIn_typesModule]
    decide

end Examples

end Spec
end ApiScaffold
