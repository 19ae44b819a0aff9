import ApiScaffold.Proofs.Client.Results
import ApiScaffold.Proofs.Document.Single
import ApiScaffold.Proofs.Document.TableChoice
import ApiScaffold.Proofs.Sql.Returning

namespace ApiScaffold.Document
variable {d : Document} {o : Operation} {f : Endpoint} {function role : Text} {schema operation : Tree}

theorem inlineName_ne_nil : DataType.inlineName function role ≠ [] := by
  simp [DataType.inlineName, Text.ofString, Text.ofChars]

/-- Only a reference that ends in no name gives a body a type of no characters. -/
theorem bodyType_eq_nil_iff :
    bodyType schema function role = [] ↔
      ∃ r, reference? schema = some (.str r) ∧ referenceName r = [] := by
  constructor
  · intro h
    cases hname : bodyTypeName schema function role with
    | error e =>
      rw [bodyType, hname] at h
      exact absurd h inlineName_ne_nil
    | ok name =>
      obtain rfl : name = [] := (eq_bodyType hname).trans h
      obtain ⟨⟨inner, depth⟩, hu, -⟩ := ok_of_bind hname
      by_cases hr : ∃ r, reference? inner = some (.str r)
      · obtain ⟨r, hr⟩ := hr
        rw [bodyTypeName_of_reference hu hr, Except.ok.injEq, List.append_eq_nil_iff,
          List.flatten_eq_nil_iff] at hname
        obtain ⟨hempty, hmarkers⟩ := hname
        obtain rfl : depth = 0 := by
          by_contra hpos
          have hmarker := hmarkers _ (List.mem_replicate.mpr ⟨hpos, rfl⟩)
          cases hmarker
        exact ⟨r, eq_self_of_unwrap hu ▸ hr, hempty⟩
      · rw [bodyTypeName_of_inline hu fun r h => hr ⟨r, h⟩] at hname
        exact absurd (Except.ok.inj hname) inlineName_ne_nil
  · rintro ⟨r, hr, hname⟩
    rw [bodyType_of_bare _ _ hr, hname]

theorem exists_responseSchema {body : Option Text}
    (h : (d.responseBody function operation).result = .ok body) :
    ∃ chosen, (d.responseSchema operation).result = .ok chosen ∧
      body = chosen.map fun schema => bodyType schema function "response" := by
  rw [result_responseBody] at h
  obtain ⟨chosen, hchosen, h⟩ := ok_of_bind h
  refine ⟨chosen, hchosen, ?_⟩
  cases chosen with
  | none =>
    cases h
    rfl
  | some schema =>
    obtain ⟨name, hname, rfl⟩ := eq_some_of_mapM_bodyTypeName h
    exact congrArg some (eq_bodyType hname)

/-- The response that counts is a reference that ends in no name. -/
def Operation.NamelessResponse (d : Document) (o : Operation) : Prop :=
  ∃ schema r, (d.responseSchema o.value).result = .ok (some schema) ∧
    reference? schema = some (.str r) ∧ referenceName r = []

theorem namelessResponse_iff (hf : (o.endpoint d).result = .ok f) :
    f.responseBody = some [] ↔ o.NamelessResponse d := by
  obtain ⟨raw, -, hf⟩ := Traced.ok_of_bind hf
  obtain ⟨parameters, -, hf⟩ := Traced.ok_of_bind hf
  obtain ⟨request, -, hf⟩ := Traced.ok_of_bind hf
  obtain ⟨response, hresponse, hf⟩ := Traced.ok_of_bind hf
  cases hf
  obtain ⟨chosen, hchosen, rfl⟩ := exists_responseSchema hresponse
  rw [Operation.NamelessResponse, hchosen]
  simp only [Option.map_eq_some_iff, bodyType_eq_nil_iff, Except.ok.injEq]
  constructor
  · rintro ⟨schema, hs, r, hr⟩
    exact ⟨schema, r, hs, hr⟩
  · rintro ⟨schema, r, hs, hr⟩
    exact ⟨schema, hs, r, hr⟩

/-- Whether a change gives something back is decided three times: for the statement, for the
function around it and for the hook. The last two agree; the first takes a response for one that
has no type. And where there is a result, the hook still calls it `void` when this is what is left
of the entity's name. -/
theorem givesBack_iff_namelessResponse {policy : Name.Policy} {root : Tree} {s : Spec}
    (h : (spec policy root).result = .ok s) (ho : Declares ⟨root⟩ o)
    (hf : (o.endpoint ⟨root⟩).result = .ok f) (hm : f.method = .post ∨ f.method = .delete)
    (config : Config) :
    f ∈ s.functions ∧
      ((f.GivesBack policy ↔ ¬ f.ReturnsVoid policy) ↔ ¬ o.NamelessResponse ⟨root⟩) ∧
      (¬ f.ReturnsVoid policy ↔ f.Deserializes policy config) ∧
      ((f.hook policy).resultType = "void" ↔ ¬ f.Deserializes policy config ∨
        ∃ body e, f.responseBody = some body ∧ DataType.ofName policy body = .reference e ∧
          Identifier.clean "any" e = "void") := by
  have hmember : f ∈ s.functions := (parsed_of_spec h).mem_functions_iff.mpr ⟨o, ho, hf⟩
  have hget : f.method ≠ .get := by rcases hm with hm | hm <;> simp [hm]
  refine ⟨hmember, ?_, ?_, ?_⟩
  · rw [← namelessResponse_iff hf, Endpoint.givesBack_iff hm, Endpoint.returnsVoid_iff,
      Endpoint.returnType_eq_void_iff hm, nonEmpty?_eq_none_iff]
    cases f.responseBody <;> simp
  · rw [Endpoint.returnsVoid_iff, Endpoint.returnType_eq_void_iff hm, Endpoint.deserializes_iff]
    cases nonEmpty? f.responseBody <;> simp
  · rw [Endpoint.resultType_eq_void_iff hget, Endpoint.deserializes_iff]
    cases nonEmpty? f.responseBody <;> simp

/-- An operation that adds something and responds with what is referred to. -/
def adder (r : Text) : Operation :=
  ⟨.post, "/pets",
    .map [(.str "responses",
      .map [(.str "200", .map [(.str "schema", referring r)])])],
    .null⟩

def added (r : Text) : Endpoint :=
  ⟨"postPets", .post, "/pets", [], none, some (referenceName r), ""⟩

variable {r : Text}

theorem endpoint_adder (d : Document) :
    ((adder r).endpoint d).result = .ok (added r) := by
  have hfunction : functionName Method.post.name "/pets" = "postPets" := by rfl
  exact Operation.endpoint_of hfunction rfl rfl rfl
    (result_responseBody_of_schema rfl (bodyTypeName_referring _ _ r))

theorem declares_adder :
    Declares ⟨single "Pet" (.map []) (adder r)⟩ (adder r) :=
  declares_single rfl rfl

theorem spec_adder (policy : Name.Policy) :
    (spec policy (single "Pet" (.map []) (adder r))).result =
      .ok ⟨[⟨"Pet", []⟩], [added r]⟩ :=
  spec_single rfl rfl (result_table_empty policy _ _) (endpoint_adder _) rfl

theorem givesBack_added (policy : Name.Policy) : (added r).GivesBack policy :=
  (Endpoint.givesBack_iff (.inl rfl)).mpr rfl

/-- A pet that is added is given back by the statement, the function and the hook. -/
theorem givesBack_adder_pet :
    (spec .standard (single "Pet" (.map []) (adder "#/definitions/Pet"))).result =
        .ok ⟨[⟨"Pet", []⟩], [added "#/definitions/Pet"]⟩ ∧
      (added "#/definitions/Pet").GivesBack .standard ∧
      ¬ (added "#/definitions/Pet").ReturnsVoid .standard ∧
      (added "#/definitions/Pet").Deserializes .standard .standard := by
  have hspec := spec_adder (r := "#/definitions/Pet") .standard
  obtain ⟨-, hstatement, hhook, -⟩ := givesBack_iff_namelessResponse hspec declares_adder
    (endpoint_adder _) (.inl rfl) .standard
  have hnamed : (added "#/definitions/Pet").responseBody ≠ some [] := by decide
  rw [ne_eq, namelessResponse_iff (endpoint_adder _)] at hnamed
  have hresult := (hstatement.mpr hnamed).mp (givesBack_added .standard)
  exact ⟨hspec, givesBack_added .standard, hresult, hhook.mp hresult⟩

/-- With a reference that ends in a slash the rows are given back by a function without a result,
and the hook gives back nothing. -/
theorem givesBack_adder_nameless :
    (spec .standard (single "Pet" (.map []) (adder "#/definitions/"))).result =
        .ok ⟨[⟨"Pet", []⟩], [added "#/definitions/"]⟩ ∧
      (added "#/definitions/").GivesBack .standard ∧
      (added "#/definitions/").ReturnsVoid .standard ∧
      ¬ (added "#/definitions/").Deserializes .standard .standard := by
  have hnone : nonEmpty? (added "#/definitions/").responseBody = none := by decide
  refine ⟨spec_adder .standard, givesBack_added .standard, ?_, ?_⟩
  · exact Endpoint.returnsVoid_iff.mpr ((Endpoint.returnType_eq_void_iff (.inl rfl)).mpr hnone)
  · rw [Endpoint.deserializes_iff, hnone]
    decide

end ApiScaffold.Document
