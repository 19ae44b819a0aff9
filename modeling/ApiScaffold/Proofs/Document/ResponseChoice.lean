import ApiScaffold.Proofs.Document.MediaTypes
import ApiScaffold.Proofs.Document.Merging
import ApiScaffold.Proofs.Document.TableChoice
import ApiScaffold.Proofs.Document.Successes

namespace ApiScaffold.Document
open ApiScaffold.Tree
variable {d : Document} {raw p s : Tree} {code : Nat} {entries : Tree.Entries} {known : Assoc Tree}

/-- The responses under the texts of their keys. Keys with one text count once, at the place of the
first, with what stands under the last. -/
def byKey (entries : Tree.Entries) : Assoc Tree :=
  Assoc.ofList (entries.map fun e => (e.1.name, e.2))

theorem named_eq (entries : Tree.Entries) :
    named entries = if WritableKeys entries then .ok (byKey entries) else .error .numberTooLong := by
  have h := mapM_nameOf id entries
  simp only [id] at h
  rw [named, h]
  split <;> rfl

section Schemas

/-- What a response gives: the schema of its JSON content, or else one of its own. A response that
leads nowhere gives none. -/
inductive Supplies (d : Document) (raw : Tree) : Option Tree → Prop
  | content {p s : Tree} (stands : d.StandsFor raw p)
      (json : jsonSchema (p.get "content") = .ok (some s)) : Supplies d raw (some s)
  | own {p : Tree} (stands : d.StandsFor raw p)
      (json : jsonSchema (p.get "content") = .ok none) : Supplies d raw (present? p "schema")
  | broken {refs : List Text} {u : Tree} (chain : Chain d raw refs u) (hu : d.Broken u) :
      Supplies d raw none

theorem get?_of_map?_eq_none {t : Tree} (h : t.map? = none) (name : Text) : t.get? name = none := by
  rw [Tree.get?, h]
  rfl

/-- What the search does with a map. -/
def firstSchemaFrom (d : Document) (p : Tree) (rest : List Tree) : Traced (Option Tree) := do
  match ← jsonSchema (p.get "content") with
  | some schema => pure (some schema)
  | none =>
    match present? p "schema" with
    | some schema => pure (some schema)
    | none => d.firstSchema rest

/-- A node that is no map has neither a content nor a schema. -/
theorem result_firstSchema_standing (h : d.StandsFor raw p) (rest : List Tree) :
    (d.firstSchema (raw :: rest)).result = (d.firstSchemaFrom p rest).result := by
  have hfollow := result_followObject (result_follow_eq_some_iff.mpr h)
  rw [firstSchema, Traced.result_bind_of_ok hfollow, Option.filter_some]
  cases hmap : p.map? with
  | some entries => rfl
  | none =>
    have hjson : jsonSchema (p.get "content") = .ok none := by
      rw [Tree.get, get?_of_map?_eq_none hmap]
      rfl
    have hown : present? p "schema" = none := by
      rw [present?, get?_of_map?_eq_none hmap]
      rfl
    rw [firstSchemaFrom, hjson]
    simp only [hown]
    rfl

theorem result_firstSchema_supplied (h : d.Supplies raw (some s)) (rest : List Tree) :
    (d.firstSchema (raw :: rest)).result = .ok (some s) := by
  generalize ho : some s = o at h
  cases h with
  | content stands json =>
    rw [result_firstSchema_standing stands, firstSchemaFrom, json]
    cases ho
    rfl
  | own stands json =>
    rw [result_firstSchema_standing stands, firstSchemaFrom, json]
    simp only [← ho]
    rfl
  | broken => cases ho

theorem result_firstSchema_passed (h : d.Supplies raw none) (rest : List Tree) :
    (d.firstSchema (raw :: rest)).result = (d.firstSchema rest).result := by
  generalize ho : none = o at h
  cases h with
  | content => cases ho
  | own stands json =>
    rw [result_firstSchema_standing stands, firstSchemaFrom, json]
    simp only [← ho]
    rfl
  | broken chain hu =>
    have hfollow := ((follow_spec d raw).2.2.1).mpr ⟨_, _, chain, hu⟩
    rw [firstSchema, Traced.result_bind_of_ok (result_followObject hfollow)]
    rfl

theorem result_firstSchema_unreadable {content : Tree.Entries} (h : d.StandsFor raw p)
    (hc : (p.get "content").map? = some content) (hkeys : ¬ WritableKeys content)
    (rest : List Tree) : (d.firstSchema (raw :: rest)).result = .error .numberTooLong := by
  rw [result_firstSchema_standing h, firstSchemaFrom, jsonSchema_eq hc, if_neg hkeys]
  rfl

/-- A response gives something, unless it never ends or a key of its content cannot be written. -/
theorem exists_supplies (hends : ¬ d.Endless raw)
    (hkeys : ∀ p content, d.StandsFor raw p → (p.get "content").map? = some content →
      WritableKeys content) : ∃ o, d.Supplies raw o := by
  obtain ⟨refs, u, hchain, -, hstop⟩ := stop_follow d raw
  generalize (d.follow raw).result = o at hstop
  cases hstop with
  | broken hu => exact ⟨_, .broken hchain hu⟩
  | again hu hr => exact absurd (hchain.endless hu hr) hends
  | found hu =>
    have hstands : d.StandsFor raw u := ⟨⟨refs, hchain⟩, hu⟩
    have hjson : ∃ o, jsonSchema (u.get "content") = .ok o := by
      cases hc : (u.get "content").map? with
      | none => exact ⟨none, by rw [jsonSchema, hc]⟩
      | some content => exact ⟨_, by rw [jsonSchema_eq hc, if_pos (hkeys u content hstands hc)]⟩
    obtain ⟨o, ho⟩ := hjson
    cases o with
    | none => exact ⟨_, .own hstands ho⟩
    | some s => exact ⟨_, .content hstands ho⟩

/-- Responses that give nothing are passed over. -/
theorem result_firstSchema_append {before : List (Nat × Tree)}
    (h : ∀ e ∈ before, d.Supplies e.2 none) (rest : List (Nat × Tree)) :
    (d.firstSchema ((before ++ rest).map (·.2))).result =
      (d.firstSchema (rest.map (·.2))).result := by
  induction before with
  | nil => rfl
  | cons e before ih =>
    rw [List.cons_append, List.map_cons, result_firstSchema_passed (h e List.mem_cons_self)]
    exact ih fun e he => h e (List.mem_cons_of_mem _ he)

end Schemas

section Choice

/-- The search comes to a response of success: none of a smaller status gives a schema, and none of
the same status that stands before it. -/
inductive Reaches (d : Document) (known : Assoc Tree) (code : Nat) (raw : Tree) : Prop
  | intro {before after : Assoc Tree} {key : Text} (split : known = before ++ (key, raw) :: after)
      (success : Succeeds key code)
      (smaller : ∀ e ∈ known, ∀ c < code, Succeeds e.1 c → d.Supplies e.2 none)
      (earlier : ∀ e ∈ before, Succeeds e.1 code → d.Supplies e.2 none)

/-- What the responses give: the schema of the first response that has one, or none if none has. -/
inductive Chooses (d : Document) (known : Assoc Tree) : Option Tree → Prop
  | found {code : Nat} {raw s : Tree} (reached : Reaches d known code raw)
      (supplied : d.Supplies raw (some s)) : Chooses d known (some s)
  | none (absent : ∀ e ∈ known, ∀ code, Succeeds e.1 code → d.Supplies e.2 none) :
      Chooses d known none

/-- Every key that the search comes to can be written. -/
structure Readable (d : Document) (entries : Tree.Entries) : Prop where
  keys : WritableKeys entries
  contents : ∀ code raw, Reaches d (byKey entries) code raw → ∀ p content, d.StandsFor raw p →
    (p.get "content").map? = some content → WritableKeys content

theorem succeeding_append_cons {before after : Assoc Tree} {key : Text}
    (h : Succeeds key code) :
    succeeding (before ++ (key, raw) :: after) =
      succeeding before ++ (code, raw) :: succeeding after := by
  rw [succeeding, List.filterMap_append, List.filterMap_cons_some (b := (code, raw))]
  · rfl
  · simp [successCode?_eq_some_iff.mpr h]

theorem exists_of_succeeding_eq {first last : List (Nat × Tree)}
    (h : succeeding known = first ++ (code, raw) :: last) :
    ∃ before key after, known = before ++ (key, raw) :: after ∧ Succeeds key code ∧
      succeeding before = first := by
  obtain ⟨given, rest, rfl, hgiven, hrest⟩ := List.filterMap_eq_append_iff.mp h
  obtain ⟨skipped, e, after, rfl, hskipped, he, -⟩ := List.filterMap_eq_cons_iff.mp hrest
  obtain ⟨found, hfound, hpair⟩ := Option.map_eq_some_iff.mp he
  obtain ⟨rfl, rfl⟩ := Prod.mk.inj hpair
  refine ⟨given ++ skipped, e.1, after, by simp, successCode?_eq_some_iff.mp hfound, ?_⟩
  have hnone : succeeding skipped = [] := List.filterMap_eq_nil_iff.mpr hskipped
  rw [succeeding, List.filterMap_append]
  exact (congrArg₂ _ hgiven hnone).trans (List.append_nil _)

/-- The search by the order of the document is the one along the sorted responses. -/
theorem reaches_iff :
    Reaches d known code raw ↔
      ∃ before after, successes known = before ++ (code, raw) :: after ∧
        ∀ e ∈ before, d.Supplies e.2 none := by
  obtain ⟨hsorted, hstatus⟩ := ascending_successes_and_atStatus known
  constructor
  · rintro ⟨rfl, hsuccess, hsmaller, hearlier⟩
    obtain ⟨before, after, hsplit, hat⟩ := exists_split_of_atStatus (fun c => (hstatus c).symm)
      (succeeding_append_cons hsuccess)
    refine ⟨before, after, hsplit, fun e he => ?_⟩
    have hle : e.1 ≤ code := by
      rw [hsplit] at hsorted
      exact (List.pairwise_append.mp hsorted).2.2 e he _ List.mem_cons_self
    rcases Nat.lt_or_eq_of_le hle with hlt | heq
    · have hmem := List.mem_append_left ((code, raw) :: after) he
      rw [← hsplit] at hmem
      obtain ⟨key, hkey, hcode⟩ := mem_successes.mp hmem
      exact hsmaller _ hkey _ hlt hcode
    · have hmem := mem_atStatus.mpr ⟨he, heq⟩
      rw [hat] at hmem
      obtain ⟨key, hkey, hcode⟩ := mem_succeeding.mp (mem_atStatus.mp hmem).1
      exact hearlier _ hkey (heq ▸ hcode)
  · rintro ⟨before, after, hsplit, hnone⟩
    obtain ⟨first, last, hgiven, hat⟩ := exists_split_of_atStatus hstatus hsplit
    obtain ⟨given, key, later, rfl, hsuccess, rfl⟩ := exists_of_succeeding_eq hgiven
    refine .intro rfl hsuccess (fun e he c hlt hcode => ?_) fun e he hcode => ?_
    · have hmem : (c, e.2) ∈ successes (given ++ (key, raw) :: later) :=
        mem_successes.mpr ⟨e.1, he, hcode⟩
      rw [hsplit] at hmem hsorted
      obtain ⟨-, hrest, -⟩ := List.pairwise_append.mp hsorted
      rcases List.mem_append.mp hmem with hbefore | hmem
      · exact hnone _ hbefore
      · rcases List.mem_cons.mp hmem with hpair | hafter
        · exact absurd (congrArg Prod.fst hpair) (Nat.ne_of_lt hlt)
        · exact absurd ((List.pairwise_cons.mp hrest).1 _ hafter) (Nat.not_le_of_lt hlt)
    · have hmem : (code, e.2) ∈ atStatus code (succeeding given) :=
        mem_atStatus.mpr ⟨mem_succeeding.mpr ⟨e.1, he, hcode⟩, rfl⟩
      rw [hat] at hmem
      exact hnone _ (mem_atStatus.mp hmem).1

theorem result_firstSchema_of_chooses {chosen : Option Tree} (h : Chooses d known chosen) :
    (d.firstSchema ((successes known).map (·.2))).result = .ok chosen := by
  cases h with
  | found hreached hs =>
    obtain ⟨before, after, hsplit, hnone⟩ := reaches_iff.mp hreached
    rw [hsplit, result_firstSchema_append hnone]
    exact result_firstSchema_supplied hs _
  | none habsent =>
    have hnone : ∀ e ∈ successes known, d.Supplies e.2 none := by
      intro e he
      obtain ⟨key, hkey, hcode⟩ := mem_successes.mp he
      exact habsent _ hkey _ hcode
    have hall := result_firstSchema_append hnone []
    rw [List.append_nil] at hall
    rw [hall]
    rfl

/-- Where every response that is come to gives something, one of them is chosen, or none. -/
theorem exists_chooses
    (h : ∀ code raw, Reaches d known code raw → ∃ o, d.Supplies raw o) :
    ∃ chosen, Chooses d known chosen := by
  classical
  cases hfind : (successes known).find? fun e => decide (¬ d.Supplies e.2 none) with
  | none =>
    refine ⟨none, .none fun e he code hcode => ?_⟩
    have hmem : (code, e.2) ∈ successes known := mem_successes.mpr ⟨e.1, he, hcode⟩
    simpa using List.find?_eq_none.mp hfind _ hmem
  | some e =>
    obtain ⟨hfirst, before, after, hsplit, hbefore⟩ := List.find?_eq_some_iff_append.mp hfind
    have hreached : Reaches d known e.1 e.2 :=
      reaches_iff.mpr ⟨before, after, hsplit, fun b hb => by simpa using hbefore b hb⟩
    obtain ⟨o, ho⟩ := h _ _ hreached
    cases o with
    | none => exact absurd ho (by simpa using hfirst)
    | some s => exact ⟨_, .found hreached ho⟩

variable {function : Text} {operation : Tree}

theorem result_responseBody_of_chooses {chosen : Option Tree}
    (hm : (operation.get "responses").map? = some entries) (hkeys : WritableKeys entries)
    (h : Chooses d (byKey entries) chosen) :
    (d.responseBody function operation).result =
      chosen.mapM fun s => bodyTypeName s function "response" := by
  have hschema : (d.responseSchema operation).result = .ok chosen := by
    rw [responseSchema, hm]
    simp only [named_eq, if_pos hkeys]
    exact result_firstSchema_of_chooses h
  rw [result_responseBody, hschema]
  rfl

/-- A key that cannot be written stops the search, be it one of the responses or one of the content
of a response that is come to. -/
theorem result_responseBody_of_not_readable
    (hm : (operation.get "responses").map? = some entries) (h : ¬ Readable d entries) :
    (d.responseBody function operation).result = .error .numberTooLong := by
  unfold responseBody
  by_cases hkeys : WritableKeys entries
  · simp only [hm, named_eq, if_pos hkeys]
    have hcontent : ∃ code raw p content, Reaches d (byKey entries) code raw ∧ d.StandsFor raw p ∧
        (p.get "content").map? = some content ∧ ¬ WritableKeys content := by
      by_contra hnone
      push Not at hnone
      exact h ⟨hkeys, fun code raw hr p content hs hc => hnone code raw p content hr hs hc⟩
    obtain ⟨code, raw, p, content, hreached, hstands, hc, hbad⟩ := hcontent
    obtain ⟨before, after, hsplit, hnone⟩ := reaches_iff.mp hreached
    have hscan : (d.firstSchema ((successes (byKey entries)).map (·.2))).result =
        .error .numberTooLong := by
      rw [hsplit, result_firstSchema_append hnone]
      exact result_firstSchema_unreadable hstands hc hbad _
    rw [Traced.result_bind_of_ok rfl, Traced.result_bind, hscan]
    rfl
  · simp only [hm, named_eq, if_neg hkeys]
    rfl

/-- The type of the response is the one of the schema that the responses of success give, the
smallest status first and those of one status in their order. Nothing else is looked at; a document
where the search comes to no endless reference has a type or none, unless a key on the way cannot be
written or the schema is an array of itself, which is gone through for ever. -/
theorem responseBody_chooses (hm : (operation.get "responses").map? = some entries)
    (hends : ∀ code raw, Reaches d (byKey entries) code raw → ¬ d.Endless raw) :
    ((byKey entries).keys = (entries.map (·.1.name)).eraseDups ∧
      ∀ e, e ∈ byKey entries ↔ Assoc.IsLast e (entries.map fun e => (e.1.name, e.2))) ∧
    (Readable d entries →
      (∃ chosen, Chooses d (byKey entries) chosen) ∧
        ∀ chosen, Chooses d (byKey entries) chosen →
          ((∀ s, chosen = some s → ¬ ArrayOfItself s) →
            (d.responseBody function operation).result =
              .ok (chosen.map fun s => bodyType s function "response")) ∧
          ∀ s, chosen = some s → ArrayOfItself s →
            (d.responseBody function operation).result = .error .looping) ∧
    (¬ Readable d entries →
      (d.responseBody function operation).result = .error .numberTooLong) := by
  refine ⟨⟨?_, fun e => Assoc.mem_ofList_iff⟩, fun hread => ⟨?_, fun chosen hc => ?_⟩,
    result_responseBody_of_not_readable hm⟩
  · rw [byKey, Assoc.keys_ofList, Assoc.keys, List.map_map]
    rfl
  · exact exists_chooses fun code raw hr =>
      exists_supplies (hends code raw hr) (hread.contents code raw hr)
  · rw [result_responseBody_of_chooses hm hread.keys hc]
    constructor
    · intro hself
      cases chosen with
      | none => rfl
      | some s => exact mapM_bodyTypeName_of_ok (bodyTypeName_eq (hself s rfl))
    · rintro s rfl hself
      exact mapM_bodyTypeName_of_itself hself

theorem standsFor_self {t : Tree} (h : reference? t = none) : d.StandsFor t t :=
  ⟨⟨[], .nil t⟩, h⟩

def answered (responses : Tree.Entries) : Tree :=
  .map [(.str "responses", .map responses)]

def created : Tree :=
  .map [(.str "content", .map [(.str "application/json",
    .map [(.str "schema", referring "#/definitions/Pet")])])]

/-- A document with a response that can be used under a name. -/
def answering : Document :=
  ⟨answered [(.str "Created", created)]⟩

/-- Two responses of success behind a failure, the one of the smaller status last. -/
def answers : Tree.Entries :=
  [(.int 404, .map [(.str "schema", referring "#/definitions/Problem")]),
    (.str "201", referring "#/responses/Created"), (.int 200, .map [])]

theorem byKey_answers :
    byKey answers =
      [(Text.ofString "404", .map [(.str "schema", referring "#/definitions/Problem")]),
        (Text.ofString "201", referring "#/responses/Created"), (Text.ofString "200", .map [])] :=
  rfl

theorem standsFor_created : answering.StandsFor (referring "#/responses/Created") created :=
  ⟨⟨["#/responses/Created"], .cons rfl rfl (.nil _)⟩, rfl⟩

theorem success_of_mem_answers {e : Text × Tree} (he : e ∈ byKey answers)
    (h : Succeeds e.1 code) :
    (code = 201 ∧ e.2 = referring "#/responses/Created") ∨ (code = 200 ∧ e.2 = .map []) := by
  have hcode := successCode?_eq_some_iff.mpr h
  rw [byKey_answers] at he
  simp only [List.mem_cons, List.not_mem_nil, or_false] at he
  rcases he with rfl | rfl | rfl
  · cases hcode
  · exact .inl ⟨(Option.some.inj hcode).symm, rfl⟩
  · exact .inr ⟨(Option.some.inj hcode).symm, rfl⟩

theorem stands_of_reaches_answers (h : Reaches answering (byKey answers) code raw) :
    answering.StandsFor raw created ∨ answering.StandsFor raw (.map []) := by
  obtain @⟨before, after, key, hsplit, hsuccess, -, -⟩ := h
  have hm : (key, raw) ∈ byKey answers := hsplit ▸ by simp
  rcases success_of_mem_answers hm hsuccess with ⟨-, rfl⟩ | ⟨-, rfl⟩
  · exact .inl standsFor_created
  · exact .inr (standsFor_self rfl)

theorem not_endless_answers (h : Reaches answering (byKey answers) code raw) :
    ¬ answering.Endless raw :=
  (stands_of_reaches_answers h).elim (·.not_endless) (·.not_endless)

theorem readable_answers : Readable answering answers := by
  refine ⟨by decide +kernel, fun code raw hr p content hp hc => ?_⟩
  rcases stands_of_reaches_answers hr with hcreated | hmap
  · obtain rfl := hp.unique hcreated
    cases hc
    decide
  · obtain rfl := hp.unique hmap
    cases hc

theorem chooses_answers : Chooses answering (byKey answers) (some (referring "#/definitions/Pet")) := by
  have hempty : Supplies answering (.map []) none := .own (standsFor_self rfl) rfl
  have hreached : Reaches answering (byKey answers) 201 (referring "#/responses/Created") := by
    refine @Reaches.intro _ _ _ _ [_] _ _ byKey_answers (successCode?_eq_some_iff.mp rfl) ?_ ?_
    · intro e he c hlt hsuccess
      rcases success_of_mem_answers he hsuccess with ⟨rfl, -⟩ | ⟨-, hraw⟩
      · exact absurd hlt (Nat.lt_irrefl _)
      · rw [hraw]
        exact hempty
    · intro e he hsuccess
      obtain rfl := List.mem_singleton.mp he
      exact absurd (successCode?_eq_some_iff.mpr hsuccess) (by decide)
  exact .found hreached (.content standsFor_created rfl)

/-- A list whose items are the list itself. -/
def listOfItself : Tree :=
  .recurring 0 (.map [(.str "type", .str "array"),
    (.str "items", .recurring 0 (.map [(.str "type", .str "array")]))])

theorem arrayOfItself_listOfItself : ArrayOfItself listOfItself :=
  ⟨0, _, .refl, ⟨rfl, rfl⟩, 0, List.mem_singleton.mpr rfl, _, .single (.items rfl ⟨rfl, rfl⟩ rfl),
    ⟨rfl, rfl⟩⟩

/-- One response, which gives such a list. -/
def listings : Tree.Entries :=
  [(.int 200, .map [(.str "schema", listOfItself)])]

theorem standsFor_of_reaches_listings (h : Reaches answering (byKey listings) code raw) :
    raw = .map [(.str "schema", listOfItself)] ∧ answering.StandsFor raw raw := by
  obtain @⟨before, after, key, hsplit, -, -, -⟩ := h
  have hm : (key, raw) ∈ byKey listings := hsplit ▸ by simp
  obtain ⟨-, rfl⟩ := Prod.mk.inj (List.mem_singleton.mp hm)
  exact ⟨rfl, standsFor_self rfl⟩

theorem readable_listings : Readable answering listings := by
  refine ⟨by decide +kernel, fun code raw hr p content hp hc => ?_⟩
  obtain ⟨rfl, hself⟩ := standsFor_of_reaches_listings hr
  obtain rfl := hp.unique hself
  cases hc

theorem chooses_listings : Chooses answering (byKey listings) (some listOfItself) := by
  have hreached : Reaches answering (byKey listings) 200 (.map [(.str "schema", listOfItself)]) := by
    refine @Reaches.intro _ _ _ _ [] [] "200" rfl (successCode?_eq_some_iff.mp rfl) ?_ ?_
    · intro e he c hlt hsuccess
      obtain rfl := List.mem_singleton.mp he
      cases successCode?_eq_some_iff.mpr hsuccess
      exact absurd hlt (Nat.lt_irrefl _)
    · intro e he
      cases he
  exact .found hreached (.own (standsFor_self rfl) rfl)

/-- The response without a schema has the smaller status, so that the other is looked at. In a list
of itself the search for a type never ends. -/
theorem responseBody_chooses_answers :
    (((answered answers).get "responses").map? = some answers ∧
      (∀ code raw, Reaches answering (byKey answers) code raw → ¬ answering.Endless raw) ∧
      Readable answering answers ∧
      (answering.responseBody "add" (answered answers)).result = .ok (some "Pet")) ∧
    ((answered listings).get "responses").map? = some listings ∧
      (∀ code raw, Reaches answering (byKey listings) code raw → ¬ answering.Endless raw) ∧
      Readable answering listings ∧
      (answering.responseBody "add" (answered listings)).result = .error .looping := by
  have hends : ∀ code raw, Reaches answering (byKey listings) code raw → ¬ answering.Endless raw :=
    fun _ _ h => (standsFor_of_reaches_listings h).2.not_endless
  have hplain : ∀ s, some (referring "#/definitions/Pet") = some s → ¬ ArrayOfItself s := by
    rintro s ⟨⟩
    exact not_arrayOfItself_of_not_isArray (not_isArray_of_reference rfl)
  refine ⟨⟨rfl, fun _ _ => not_endless_answers, readable_answers, ?_⟩, rfl, hends,
    readable_listings, ?_⟩
  · have hanswers : ((answered answers).get "responses").map? = some answers := rfl
    have hresult : (answering.responseBody "add" (answered answers)).result =
        .ok (some (bodyType (referring "#/definitions/Pet") "add" "response")) :=
      (((responseBody_chooses hanswers fun _ _ => not_endless_answers).2.1
        readable_answers).2 _ chooses_answers).1 hplain
    rw [hresult, bodyType_referring]
    rfl
  · have hlistings : ((answered listings).get "responses").map? = some listings := rfl
    exact (((responseBody_chooses hlistings hends).2.1 readable_listings).2 _ chooses_listings).2
      _ rfl arrayOfItself_listOfItself

/-- A status that cannot be written stands beside the response that has a schema. -/
def unwritten : Tree.Entries :=
  [(.int unwritable, .map []), (.str "200", .map [(.str "schema", referring "#/definitions/Pet")])]

/-- Then the operation has no type, nor has it none. -/
theorem responseBody_unwritten :
    ((answered unwritten).get "responses").map? = some unwritten ∧
      (∀ e ∈ unwritten, ¬ answering.Endless e.2) ∧
      (∃ e ∈ unwritten, e.1.name? = some "200" ∧
        Supplies answering e.2 (some (referring "#/definitions/Pet"))) ∧
      (answering.responseBody "add" (answered unwritten)).result = .error .numberTooLong := by
  have hfirst : (.int unwritable, .map []) ∈ unwritten := List.mem_cons_self
  have hbad : ¬ WritableKeys unwritten := by
    intro h
    have hwritable := h _ hfirst
    rw [isWritable_unwritable] at hwritable
    cases hwritable
  refine ⟨rfl, fun e he => ?_, ?_, result_responseBody_of_not_readable rfl fun h => hbad h.keys⟩
  · have hself : reference? e.2 = none := by
      simp only [unwritten, List.mem_cons, List.not_mem_nil, or_false] at he
      rcases he with rfl | rfl <;> rfl
    exact (standsFor_self hself).not_endless
  · exact ⟨_, List.mem_cons_of_mem _ List.mem_cons_self, rfl, .own (standsFor_self rfl) rfl⟩

end Choice

end ApiScaffold.Document
