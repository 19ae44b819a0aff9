import ApiScaffold.Proofs.Document.Correspondence.Basic
import ApiScaffold.Proofs.Document.Entries

namespace ApiScaffold.Document
namespace Correspondence
variable {d d' : Document} (c : Correspondence d d') {t u : Tree}

section Bodies

theorem jsonContent {media media' : Assoc Tree} (h : Assoc.Related c.node media media') :
    Option.Rel c.node (jsonContent? media) (jsonContent? media') := by
  unfold jsonContent?
  rcases option_rel_iff.mp (h.get? "application/json") with
    ⟨ht, hu⟩ | ⟨s, s', ht, hu, hs⟩
  · rw [ht, hu]
    exact h.find?
  · rw [ht, hu, Option.filter_some, Option.filter_some, c.node_isNull hs]
    split
    · exact .some hs
    · exact h.find?

theorem isArray_iff (h : c.node t u) : IsArray u ↔ IsArray t := by
  rw [IsArray, IsArray, c.isNone_reference h, c.get_text "type" h (by decide)]

/-- Both searches go through as many arrays to corresponding nodes, or both go on for ever. -/
theorem agree_unwrapWithin (around : List Nat) (t u : Tree) (h : c.node t u) :
    Agree c.rename (fun a b => c.node a.1 b.1 ∧ a.2 = b.2) (unwrapWithin around t)
      (unwrapWithin around u) := by
  by_cases harray : IsArray t
  · have harray' := (c.isArray_iff h).mpr harray
    rcases option_rel_iff.mp (c.node_label h) with
      ⟨ht, hu⟩ | ⟨⟨label, s⟩, ⟨label', s'⟩, ht, hu, hs⟩
    · rcases option_rel_iff.mp (c.node_field "items" h (by decide)) with
        ⟨hi, hi'⟩ | ⟨s, s', hi, hi', hs⟩
      · rw [unwrapWithin_of_no_items ht harray hi, unwrapWithin_of_no_items hu harray' hi']
        exact .ok ⟨c.value_node c.value_null, rfl⟩
      · rw [unwrapWithin_of_items ht harray hi, unwrapWithin_of_items hu harray' hi']
        apply (agree_unwrapWithin around s s' (c.value_node hs)).bind
        rintro found found' ⟨hnode, hdepth⟩
        exact .ok ⟨hnode, congrArg (· + 1) hdepth⟩
    · obtain ⟨rfl, hs⟩ := hs
      obtain rfl := label?_eq_some ht
      obtain rfl := label?_eq_some hu
      rw [unwrapWithin_recurring (isArray_recurring.mp harray),
        unwrapWithin_recurring (isArray_recurring.mp harray')]
      split
      · exact .error .looping
      · exact agree_unwrapWithin _ s s' hs
  · have harray' : ¬ IsArray u := fun hu => harray ((c.isArray_iff h).mp hu)
    rw [unwrapWithin_of_not_isArray harray, unwrapWithin_of_not_isArray harray']
    exact .ok ⟨h, rfl⟩
termination_by sizeOf t
decreasing_by
  · exact Tree.sizeOf_get?_lt ‹_›
  · exact sizeOf_label_lt ‹_›

theorem agree_bodyTypeName (h : c.node t u) (function role : Text) :
    Agree c.rename Eq (bodyTypeName t function role) (bodyTypeName u function role) := by
  have hunwrap := c.agree_unwrapWithin [] t u h
  generalize ht : unwrapWithin [] t = found at hunwrap
  generalize hu : unwrapWithin [] u = found' at hunwrap
  cases hunwrap with
  | @ok a b hab =>
    obtain ⟨hnode, hdepth⟩ := hab
    by_cases htext : ∃ r, reference? a.1 = some (.str r)
    · obtain ⟨r, hr⟩ := htext
      obtain ⟨hknown, hr'⟩ := c.node_reference_text hnode hr
      rw [bodyTypeName_of_reference ht hr, bodyTypeName_of_reference hu hr', hdepth,
        c.referenceName_rename hknown]
      exact .ok rfl
    · have hr : ∀ r, reference? a.1 ≠ some (.str r) := fun r hr => htext ⟨r, hr⟩
      rw [bodyTypeName_of_inline ht hr, bodyTypeName_of_inline hu (c.not_text hnode hr)]
      exact .ok rfl
  | error e =>
    rw [bodyTypeName, bodyTypeName, unwrap, unwrap, ht, hu]
    exact .error e

/-- The JSON schema of a content is found under the same media type. -/
theorem agree_jsonSchema (h : c.value t u) :
    Agree c.rename (Option.Rel c.value) (jsonSchema t) (jsonSchema u) := by
  unfold jsonSchema
  rcases option_rel_iff.mp (c.value_entries h) with ⟨ht, hu⟩ | ⟨es, es', ht, hu, hes⟩
  · simp only [ht, hu]
    exact .ok .none
  · simp only [ht, hu]
    have hnames : Agree c.rename (Assoc.Related c.node)
        (es.mapM fun e => do .ok (mediaType (← nameOf e.1), e.2))
        (es'.mapM fun e => do .ok (mediaType (← nameOf e.1), e.2)) := by
      refine Agree.mapM hes fun e e' he => ?_
      rw [← he.1]
      apply (agree_nameOf e.1).bind
      rintro name _ rfl
      exact .ok ⟨rfl, he.2⟩
    apply hnames.bind
    intro media media' hmedia
    refine .ok ?_
    rcases option_rel_iff.mp (c.jsonContent hmedia.ofList) with ⟨ht, hu⟩ | ⟨s, s', ht, hu, hs⟩
    · rw [ht, hu]
      exact .none
    · rw [ht, hu]
      exact c.present "schema" hs (by decide)

end Bodies

section Operations
variable {α β γ δ : Type}

theorem agree_named {entries entries' : Tree.Entries}
    (h : List.Forall₂ (fun e e' => e.1 = e'.1 ∧ c.node e.2 e'.2) entries entries') :
    Agree c.rename (Assoc.Related c.node) (named entries) (named entries') := by
  have hnames : Agree c.rename (Assoc.Related c.node)
      (entries.mapM fun e => do .ok (← nameOf e.1, e.2))
      (entries'.mapM fun e => do .ok (← nameOf e.1, e.2)) := by
    refine Agree.mapM h fun e e' he => ?_
    rw [← he.1]
    apply (agree_nameOf e.1).bind
    rintro name _ rfl
    exact .ok ⟨rfl, he.2⟩
  apply hnames.bind
  intro names names' hnames
  exact .ok hnames.ofList

/-- The same numbers in the same order, with values that are related. -/
def Ranked (R : α → β → Prop) : List (Nat × α) → List (Nat × β) → Prop :=
  List.Forall₂ fun e e' => e.1 = e'.1 ∧ R e.2 e'.2

theorem Ranked.insertByCode {R : α → β → Prop} {code : Nat} {a : α} {b : β}
    {l : List (Nat × α)} {l' : List (Nat × β)} (h : Ranked R l l') (hab : R a b) :
    Ranked R (insertByCode code a l) (insertByCode code b l') := by
  induction h with
  | nil => exact .cons ⟨rfl, hab⟩ .nil
  | @cons e e' rest rest' he hrest ih =>
    simp only [Document.insertByCode, he.1]
    split
    · exact .cons he ih
    · exact .cons ⟨rfl, hab⟩ (.cons he hrest)

theorem ranked_successes {responses responses' : Assoc Tree}
    (h : Assoc.Related c.node responses responses') :
    Ranked c.node (successes responses) (successes responses') := by
  have hfold {sorted sorted' : List (Nat × Tree)} (hs : Ranked c.node sorted sorted') :
      Ranked c.node (responses.foldl insertResponse sorted)
        (responses'.foldl insertResponse sorted') := by
    induction h generalizing sorted sorted' with
    | nil => exact hs
    | @cons e e' rest rest' he _ ih =>
      obtain ⟨hkey, hvalue⟩ := he
      rw [List.foldl_cons, List.foldl_cons]
      apply ih
      rw [insertResponse, insertResponse, ← hkey]
      cases successCode? e.1 with
      | none => exact hs
      | some code => exact hs.insertByCode hvalue
  rw [successes_eq, successes_eq]
  exact hfold .nil

theorem agree_firstSchema {responses responses' : List Tree}
    (h : List.Forall₂ c.node responses responses') :
    Agree c.rename (Option.Rel c.value) (d.firstSchema responses).result
      (d'.firstSchema responses').result := by
  induction h with
  | nil => exact .ok .none
  | @cons raw raw' rest rest' hraw _ ih =>
    rw [firstSchema, firstSchema, Traced.result_bind, Traced.result_bind]
    apply (c.agree_followObject hraw).bind
    intro found found' hfound
    cases hfound with
    | none => exact ih
    | @some response response' hresponse =>
      have hcontent := c.get "content" hresponse (by decide)
      dsimp only
      rw [Traced.result_bind, Traced.result_bind]
      apply (c.agree_jsonSchema hcontent).bind
      intro schema schema' hschema
      cases hschema with
      | some hs => exact .ok (.some hs)
      | none =>
        dsimp only
        rcases option_rel_iff.mp
          (c.present "schema" hresponse (by decide)) with
          ⟨ht, hu⟩ | ⟨s, s', ht, hu, hs⟩
        · rw [ht, hu]
          exact ih
        · rw [ht, hu]
          exact .ok (.some hs)

theorem agree_mapM_bodyTypeName {schema schema' : Option Tree}
    (h : Option.Rel c.value schema schema') (function role : Text) :
    Agree c.rename Eq (schema.mapM fun s => bodyTypeName s function role)
      (schema'.mapM fun s => bodyTypeName s function role) := by
  cases h with
  | none => exact .ok rfl
  | some hs =>
    apply (c.agree_bodyTypeName (c.value_node hs) function role).bind
    rintro name _ rfl
    exact .ok rfl

theorem agree_responseBody (h : c.node t u) (function : Text) :
    Agree c.rename Eq (d.responseBody function t).result (d'.responseBody function u).result := by
  have hresponses := c.get "responses" h (by decide)
  unfold responseBody
  rcases option_rel_iff.mp (c.value_entries hresponses) with ⟨ht, hu⟩ | ⟨es, es', ht, hu, hes⟩
  · simp only [ht, hu]
    exact .ok rfl
  · simp only [ht, hu]
    rw [Traced.result_bind, Traced.result_bind]
    apply (c.agree_named hes).bind
    intro names names' hnames
    rw [Traced.result_bind, Traced.result_bind]
    have hlist : List.Forall₂ c.node ((successes names).map (·.2))
        ((successes names').map (·.2)) := by
      rw [List.forall₂_map_left_iff, List.forall₂_map_right_iff]
      exact (c.ranked_successes hnames).imp fun _ _ he => he.2
    apply (c.agree_firstSchema hlist).bind
    intro schema schema' hschema
    exact c.agree_mapM_bodyTypeName hschema function "response"

theorem bodyParameter_corresponds {parameters parameters' : List Tree}
    (h : List.Forall₂ c.node parameters parameters') :
    Option.Rel c.value (bodyParameter parameters) (bodyParameter parameters') := by
  unfold bodyParameter
  induction h with
  | nil => exact .none
  | @cons p p' rest rest' hp _ ih =>
    have hplace := c.get_text "in" hp (by decide)
    rw [List.find?_cons, List.find?_cons, hplace]
    split
    · exact c.present "schema" hp (by decide)
    · exact ih

theorem agree_requestBody {parameters parameters' : List Tree} (h : c.node t u)
    (hp : List.Forall₂ c.node parameters parameters') (function : Text) :
    Agree c.rename Eq (d.requestBody function t parameters).result
      (d'.requestBody function u parameters').result := by
  have hbody := c.get "requestBody" h (by decide)
  unfold requestBody
  rw [Traced.result_bind, Traced.result_bind]
  apply (c.agree_followObject (c.value_node hbody)).bind
  intro found found' hfound
  cases hfound with
  | none => exact c.agree_mapM_bodyTypeName (c.bodyParameter_corresponds hp) function "request"
  | some hnode =>
    dsimp only
    rw [Traced.result_bind, Traced.result_bind]
    apply (c.agree_jsonSchema (c.get "content" hnode (by decide))).bind
    intro schema schema' hschema
    exact c.agree_mapM_bodyTypeName hschema function "request"

theorem agree_mergeFrom {merged merged' : Assoc Tree} {raws raws' : List Tree}
    (hm : Assoc.Related c.node merged merged') (h : List.Forall₂ c.node raws raws') :
    Agree c.rename (Assoc.Related c.node) (d.mergeFrom merged raws).result
      (d'.mergeFrom merged' raws').result := by
  induction h generalizing merged merged' with
  | nil => exact .ok hm
  | @cons raw raw' rest rest' hraw _ ih =>
    rw [mergeFrom, mergeFrom, Traced.result_bind, Traced.result_bind]
    apply (c.agree_followObject hraw).bind
    intro found found' hfound
    cases hfound with
    | none => exact ih hm
    | @some parameter parameter' hparameter =>
      have hname := c.get_text "name" hparameter (by decide)
      dsimp only
      rw [hname]
      split
      · exact ih hm
      · exact ih (hm.put hparameter)

theorem agree_mergeParameters {shared shared' own own' : Tree} (hs : c.value shared shared')
    (ho : c.value own own') :
    Agree c.rename (List.Forall₂ c.node) (d.mergeParameters shared own).result
      (d'.mergeParameters shared' own').result := by
  have hraws : List.Forall₂ c.node (shared.items ++ own.items) (shared'.items ++ own'.items) :=
    List.rel_append ((c.items hs).imp fun _ _ h => c.value_node h)
      ((c.items ho).imp fun _ _ h => c.value_node h)
  unfold mergeParameters
  rw [Traced.result_bind, Traced.result_bind]
  apply (c.agree_mergeFrom .nil hraws).bind
  intro merged merged' hmerged
  exact .ok hmerged.values

theorem parameterType_eq (h : c.node t u) : parameterType u = parameterType t := by
  unfold parameterType
  rw [c.has "type" h (by decide), c.dataType_eq h]
  rcases option_rel_iff.mp (c.node_field "schema" h (by decide)) with
    ⟨ht, hu⟩ | ⟨s, s', ht, hu, hs⟩
  · simp only [ht, hu]
  · simp only [ht, hu]
    exact c.dataType_eq (c.value_node hs)

theorem parameter?_eq (h : c.node t u) : parameter? u = parameter? t := by
  have hname := c.get_text "name" h (by decide)
  have hrequired := c.value_isTruthy (c.get "required" h (by decide))
  have hplace : ((u.get? "in").getD (.str "query")).str? =
      ((t.get? "in").getD (.str "query")).str? := by
    rcases option_rel_iff.mp (c.node_field "in" h (by decide)) with
      ⟨ht, hu⟩ | ⟨s, s', ht, hu, hs⟩
    · rw [ht, hu]
    · rw [ht, hu]
      exact c.value_text hs
  unfold parameter?
  rw [hname, hrequired, hplace, c.parameterType_eq h]

theorem agree_parameters {raws raws' : List Tree} (h : List.Forall₂ c.node raws raws') :
    Agree c.rename Eq (parameters raws) (parameters raws') := by
  have hmap : raws'.mapM parameter? = raws.mapM parameter? := by
    induction h with
    | nil => rfl
    | cons hraw _ ih => rw [List.mapM_cons, List.mapM_cons, c.parameter?_eq hraw, ih]
  have heq : parameters raws' = parameters raws := by rw [parameters, parameters, hmap]
  rw [heq]
  apply agree_of_failsBy
  apply failsBy_parameters
  intro raw _
  exact throughout_spares rfl rfl fun _ _ _ => rfl

theorem agree_endpoint {shared shared' : Tree} (h : c.node t u) (hs : c.value shared shared')
    (method : Method) (path : Text) :
    Agree c.rename Eq (d.endpoint method path t shared).result
      (d'.endpoint method path u shared').result := by
  have hid := c.get_text "operationId" h (by decide)
  have hsummary := c.get_text "summary" h (by decide)
  have hown := c.get "parameters" h (by decide)
  unfold endpoint
  rw [hid, hsummary]
  dsimp only
  simp only [Traced.result_bind, Traced.result_liftM, Traced.result_pure]
  apply (c.agree_mergeParameters hs hown).bind
  intro raws raws' hraws
  apply (c.agree_parameters hraws).bind
  rintro parameters _ rfl
  apply (c.agree_requestBody h hraws _).bind
  rintro request _ rfl
  apply (c.agree_responseBody h _).bind
  rintro response _ rfl
  exact .ok rfl

/-- Methods are no special fields. -/
theorem key_not_special (m : Method) : Text.ofString m.key ∉ special := by
  cases m <;> decide

theorem agree_endpointsOf (h : c.node t u) (path : Tree) (methods : List Method) :
    Agree c.rename Eq (d.endpointsOf path t methods).result
      (d'.endpointsOf path u methods).result := by
  have hshared := c.get "parameters" h (by decide)
  induction methods with
  | nil => exact .ok rfl
  | cons m rest ih =>
    have hoperation := c.value_node (c.get m.key h (key_not_special m))
    rw [endpointsOf, endpointsOf, c.node_isObject hoperation]
    split
    · simp only [Traced.result_bind, Traced.result_liftM, Traced.result_pure]
      apply (agree_nameOf path).bind
      rintro name _ rfl
      apply (c.agree_endpoint hoperation hshared m name).bind
      rintro f _ rfl
      apply ih.bind
      rintro fs _ rfl
      exact .ok rfl
    · exact ih

theorem agree_pathEndpoints {e e' : Tree × Tree} (hkey : e.1 = e'.1) (h : c.node e.2 e'.2) :
    Agree c.rename Eq (d.pathEndpoints e) (d'.pathEndpoints e') := by
  unfold pathEndpoints
  apply (c.agree_followObject h).bind
  intro found found' hfound
  cases hfound with
  | none => exact .ok rfl
  | some hitem =>
    dsimp only
    rw [← hkey]
    exact c.agree_endpointsOf hitem e.1 Method.all

end Operations

end Correspondence
end ApiScaffold.Document
