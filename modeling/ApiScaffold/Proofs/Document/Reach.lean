import ApiScaffold.Proofs.Assoc.Keys
import ApiScaffold.Proofs.Document.Entries
import ApiScaffold.Proofs.Document.Faults

namespace ApiScaffold
open ApiScaffold.Tree

namespace Document
variable {d : Document} {P : Tree → Prop} {Q : Tree → Prop} {t u : Tree}

section Found

theorem within_of_inward (h : Relation.ReflTransGen Inward t u) : Within u t := by
  induction h with
  | refl => exact .self t
  | tail _ hstep ih =>
    refine Within.trans ?_ ih
    cases hstep with
    | label => exact .label (.self _)
    | items _ _ content => exact within_of_get? content

theorem within_of_followReference {chain : List Text} {r : Text}
    (h : (d.followReference chain r).result = .ok (some u)) : Within u d.root := by
  fun_induction followReference d chain r with
  | case1 => cases h
  | case2 => cases h
  | case3 => cases h
  | case4 chain r hr next hne hn hl =>
    cases h
    exact within_of_lookup ‹_›
  | case5 chain r hr next hne hl further hn ih => exact ih h
  | case6 => cases h

/-- What a node leads to is the node itself or stands in the document. -/
theorem within_of_follow (h : (d.follow t).result = .ok (some u)) : u = t ∨ Within u d.root := by
  unfold follow at h
  split at h
  · cases h
    exact .inl rfl
  · exact .inr (within_of_followReference h)
  · cases h

theorem throughout_of_followObject (hd : Throughout P d.root) (ht : Throughout P t)
    (h : (d.followObject t).result = .ok (some u)) : Throughout P u := by
  obtain ⟨found, hfound, h⟩ := Traced.ok_of_bind h
  obtain rfl : found = some u := by
    have hfilter : found.filter (·.map?.isSome) = some u := Except.ok.inj h
    exact (Option.filter_eq_some_iff.mp hfilter).1
  rcases within_of_follow hfound with rfl | hw
  · exact ht
  · exact hd.within hw

theorem ok_bind {α β : Type} {x : Except Fault α} {f : α → Except Fault β} {a : α}
    (h : x = .ok a) : x >>= f = f a := by
  rw [h]
  rfl

theorem forall_mapM_nameOf {f : Text → Text} {entries : Entries} {names : List (Text × Tree)}
    (h : ∀ e ∈ entries, Q e.2)
    (hn : (entries.mapM fun e => do .ok (f (← nameOf e.1), e.2)) = .ok names) :
    ∀ e ∈ names, Q e.2 := by
  intro e he
  obtain ⟨source, hsource, hname⟩ := exists_of_mem_mapM hn he
  obtain ⟨name, -, hname⟩ := ok_of_bind hname
  cases hname
  exact h source hsource

theorem forall_named {entries : Entries} {m : Assoc Tree} (h : ∀ e ∈ entries, Q e.2)
    (hm : named entries = .ok m) : ∀ e ∈ m, Q e.2 := by
  obtain ⟨names, hnames, hm⟩ := ok_of_bind hm
  cases hm
  exact Assoc.forall_ofList (forall_mapM_nameOf (f := id) h hnames)

theorem throughout_of_present? {name : Text} (h : Throughout P t)
    (hs : present? t name = some u) : Throughout P u :=
  h.get? (Option.filter_eq_some_iff.mp hs).1

/-- The schema of a content stands in it. -/
theorem throughout_of_jsonSchema (h : Throughout P t) (hs : jsonSchema t = .ok (some u)) :
    Throughout P u := by
  unfold jsonSchema at hs
  split at hs
  · cases hs
  · rename_i entries hentries
    obtain ⟨names, hnames, hs⟩ := ok_of_bind hs
    have hmedia : ∀ e ∈ Assoc.ofList names, Throughout P e.2 :=
      Assoc.forall_ofList (forall_mapM_nameOf (fun e he => h.value hentries he) hnames)
    obtain ⟨content, hcontent, hschema⟩ := Option.bind_eq_some_iff.mp (Except.ok.inj hs)
    refine throughout_of_present? ?_ hschema
    rcases Option.or_eq_some_iff.mp hcontent with hfound | ⟨-, hfound⟩
    · have hlast := Assoc.get?_ofList_eq_some_iff.mp (Option.filter_eq_some_iff.mp hfound).1
      exact hmedia _ (Assoc.mem_ofList_iff.mpr hlast)
    · obtain ⟨e, he, rfl⟩ := Option.map_eq_some_iff.mp hfound
      exact hmedia e (List.mem_of_find?_eq_some he)

/-- The schema of the responses stands in one of them or in the document. -/
theorem throughout_of_firstSchema {raws : List Tree} (hnull : P .null)
    (hd : Throughout P d.root) (h : ∀ raw ∈ raws, Throughout P raw)
    (hs : (d.firstSchema raws).result = .ok (some u)) : Throughout P u := by
  induction raws with
  | nil => cases hs
  | cons raw rest ih =>
    have hrest := ih fun raw hraw => h raw (List.mem_cons_of_mem _ hraw)
    rw [firstSchema] at hs
    obtain ⟨found, hfound, hs⟩ := Traced.ok_of_bind hs
    cases found with
    | none => exact hrest hs
    | some response =>
      have hresponse := throughout_of_followObject hd (h raw List.mem_cons_self) hfound
      obtain ⟨schema, hschema, hs⟩ := Traced.ok_of_bind hs
      cases schema with
      | some schema =>
        cases hs
        exact throughout_of_jsonSchema (hresponse.get hnull) hschema
      | none =>
        dsimp only at hs
        split at hs
        · rename_i own hown
          cases hs
          exact throughout_of_present? hresponse hown
        · exact hrest hs

theorem throughout_of_bodyParameter {raws : List Tree} (h : ∀ raw ∈ raws, Throughout P raw)
    (hs : bodyParameter raws = some u) : Throughout P u := by
  obtain ⟨parameter, hparameter, hschema⟩ := Option.bind_eq_some_iff.mp hs
  exact throughout_of_present? (h parameter (List.mem_of_find?_eq_some hparameter)) hschema

theorem forall_insertByCode {code : Nat} {v : Tree} {l : List (Nat × Tree)} (hv : Q v)
    (h : ∀ e ∈ l, Q e.2) : ∀ e ∈ insertByCode code v l, Q e.2 := by
  induction l with
  | nil =>
    intro e he
    obtain rfl := List.mem_singleton.mp he
    exact hv
  | cons first rest ih =>
    rw [insertByCode]
    split
    · intro e he
      rcases List.mem_cons.mp he with rfl | he
      · exact h e List.mem_cons_self
      · exact ih (fun e he => h e (List.mem_cons_of_mem _ he)) e he
    · intro e he
      rcases List.mem_cons.mp he with rfl | he
      · exact hv
      · exact h e he

theorem forall_successes {m : Assoc Tree} (h : ∀ e ∈ m, Q e.2) : ∀ e ∈ successes m, Q e.2 := by
  have hfold (sorted : List (Nat × Tree)) (hs : ∀ e ∈ sorted, Q e.2) :
      ∀ e ∈ m.foldl insertResponse sorted, Q e.2 := by
    induction m generalizing sorted with
    | nil => exact hs
    | cons first rest ih =>
      rw [List.foldl_cons]
      apply ih fun e he => h e (List.mem_cons_of_mem _ he)
      unfold insertResponse
      split
      · exact forall_insertByCode (h first List.mem_cons_self) hs
      · exact hs
  rw [successes_eq]
  exact hfold [] (by simp)

theorem throughout_mergeFrom {raws : List Tree} {m merged : Assoc Tree}
    (hd : Throughout P d.root) (h : ∀ raw ∈ raws, Throughout P raw)
    (hm : ∀ e ∈ m, Throughout P e.2) (hr : (d.mergeFrom m raws).result = .ok merged) :
    ∀ e ∈ merged, Throughout P e.2 := by
  induction raws generalizing m with
  | nil =>
    cases hr
    exact hm
  | cons raw rest ih =>
    have hrest : ∀ raw ∈ rest, Throughout P raw :=
      fun raw hraw => h raw (List.mem_cons_of_mem _ hraw)
    rw [mergeFrom] at hr
    obtain ⟨found, hfound, hr⟩ := Traced.ok_of_bind hr
    cases found with
    | none =>
      obtain ⟨_, -, hr⟩ := Traced.ok_of_bind hr
      exact ih hrest hm hr
    | some parameter =>
      dsimp only at hr
      split at hr
      · obtain ⟨_, -, hr⟩ := Traced.ok_of_bind hr
        exact ih hrest hm hr
      · have hparameter := throughout_of_followObject hd (h raw List.mem_cons_self) hfound
        exact ih hrest (Assoc.forall_put hm hparameter) hr

theorem throughout_mergeParameters {shared own : Tree} {raws : List Tree}
    (hd : Throughout P d.root) (hs : Throughout P shared) (ho : Throughout P own)
    (hr : (d.mergeParameters shared own).result = .ok raws) : ∀ raw ∈ raws, Throughout P raw := by
  obtain ⟨merged, hmerged, hr⟩ := Traced.ok_of_bind hr
  cases hr
  have hall : ∀ raw ∈ shared.items ++ own.items, Throughout P raw := by
    intro raw hraw
    rcases List.mem_append.mp hraw with hraw | hraw
    · exact hs.item hraw
    · exact ho.item hraw
  intro raw hraw
  obtain ⟨e, he, rfl⟩ := List.mem_map.mp hraw
  exact throughout_mergeFrom hd hall (by simp) hmerged e he

end Found

section Endpoints
variable {p : Fault → Prop} {raws : List Tree} {m : Assoc Tree}
  (hroot : Throughout (Spares p) d.root) (hfollow : ∀ t, FailsBy p (d.follow t).result)
include hroot hfollow

omit hroot in
theorem failsBy_followObject (t : Tree) : FailsBy p (d.followObject t).result := by
  unfold followObject
  rw [Traced.result_bind]
  apply (hfollow t).bind
  intro found _
  exact failsBy_ok _

theorem failsBy_firstSchema (h : ∀ raw ∈ raws, Throughout (Spares p) raw) :
    FailsBy p (d.firstSchema raws).result := by
  induction raws with
  | nil => exact failsBy_ok _
  | cons raw rest ih =>
    have hrest : FailsBy p (d.firstSchema rest).result :=
      ih fun raw hraw => h raw (List.mem_cons_of_mem _ hraw)
    rw [firstSchema, Traced.result_bind]
    apply (failsBy_followObject hfollow raw).bind
    intro found hfound
    cases found with
    | none => exact hrest
    | some response =>
      have hresponse := throughout_of_followObject hroot (h raw List.mem_cons_self) hfound
      dsimp only
      rw [Traced.result_bind]
      apply (failsBy_jsonSchema (hresponse.get spares_null)).bind
      intro schema _
      cases schema with
      | some schema => exact failsBy_ok _
      | none =>
        dsimp only
        split
        · exact failsBy_ok _
        · exact hrest

theorem failsBy_responseBody (h : Throughout (Spares p) t) (function : Text) :
    FailsBy p (d.responseBody function t).result := by
  have hresponses : Throughout (Spares p) (t.get "responses") := h.get spares_null
  unfold responseBody
  split
  · rename_i responses hr
    rw [Traced.result_bind]
    apply (failsBy_named (hresponses.here.key hr)).bind
    intro names hnames
    rw [Traced.result_bind]
    have hvalues : ∀ raw ∈ (successes names).map (·.2), Throughout (Spares p) raw := by
      intro raw hraw
      obtain ⟨e, he, rfl⟩ := List.mem_map.mp hraw
      have hall : ∀ e ∈ responses, Throughout (Spares p) e.2 :=
        fun e he => hresponses.value hr he
      exact forall_successes (forall_named hall hnames) e he
    apply (failsBy_firstSchema hroot hfollow hvalues).bind
    intro schema hschema
    apply failsBy_mapM_bodyTypeName
    rintro s rfl
    exact (throughout_of_firstSchema spares_null hroot hvalues hschema).here
  · exact failsBy_ok _

theorem failsBy_requestBody (h : Throughout (Spares p) t)
    (hraws : ∀ raw ∈ raws, Throughout (Spares p) raw) (function : Text) :
    FailsBy p (d.requestBody function t raws).result := by
  have hbody : Throughout (Spares p) (t.get "requestBody") := h.get spares_null
  unfold requestBody
  rw [Traced.result_bind]
  apply (failsBy_followObject hfollow _).bind
  intro found hfound
  cases found with
  | none =>
    apply failsBy_mapM_bodyTypeName
    intro s hs
    exact (throughout_of_bodyParameter hraws hs).here
  | some body =>
    have hcontent : Throughout (Spares p) (body.get "content") :=
      (throughout_of_followObject hroot hbody hfound).get spares_null
    dsimp only
    rw [Traced.result_bind]
    apply (failsBy_jsonSchema hcontent).bind
    intro schema hschema
    apply failsBy_mapM_bodyTypeName
    rintro s rfl
    exact (throughout_of_jsonSchema hcontent hschema).here

omit hroot in
theorem failsBy_mergeFrom : FailsBy p (d.mergeFrom m raws).result := by
  induction raws generalizing m with
  | nil => exact failsBy_ok _
  | cons raw rest ih =>
    rw [mergeFrom, Traced.result_bind]
    apply (failsBy_followObject hfollow raw).bind
    intro found _
    cases found with
    | none => exact ih
    | some parameter =>
      dsimp only
      split
      · exact ih
      · exact ih

theorem failsBy_endpoint {shared : Tree} (h : Throughout (Spares p) t)
    (hs : Throughout (Spares p) shared) (method : Method) (path : Text) :
    FailsBy p (d.endpoint method path t shared).result := by
  have hown : Throughout (Spares p) (t.get "parameters") := h.get spares_null
  have hmerged : FailsBy p (d.mergeParameters shared (t.get "parameters")).result := by
    unfold mergeParameters
    rw [Traced.result_bind]
    apply (failsBy_mergeFrom hfollow).bind
    intro merged _
    exact failsBy_ok _
  unfold endpoint
  dsimp only
  simp only [Traced.result_bind, Traced.result_liftM, Traced.result_pure]
  apply hmerged.bind
  intro raws hraws
  have hmember := throughout_mergeParameters hroot hs hown hraws
  apply (failsBy_parameters hmember).bind
  intro parameters _
  apply (failsBy_requestBody hroot hfollow h hmember _).bind
  intro request _
  apply (failsBy_responseBody hroot hfollow h _).bind
  intro response _
  exact failsBy_ok _

theorem failsBy_endpointsOf (h : Throughout (Spares p) t) {path : Tree}
    (hpath : FailsBy p (nameOf path)) (methods : List Method) :
    FailsBy p (d.endpointsOf path t methods).result := by
  induction methods with
  | nil => exact failsBy_ok _
  | cons m rest ih =>
    rw [endpointsOf]
    split
    · simp only [Traced.result_bind, Traced.result_liftM, Traced.result_pure]
      apply hpath.bind
      intro name _
      apply (failsBy_endpoint hroot hfollow (h.get spares_null) (h.get spares_null) m name).bind
      intro f _
      apply ih.bind
      intro fs _
      exact failsBy_ok _
    · exact ih

theorem failsBy_pathEndpoints {e : Tree × Tree} (hkey : FailsBy p (nameOf e.1))
    (h : Throughout (Spares p) e.2) : FailsBy p (d.pathEndpoints e) := by
  unfold pathEndpoints
  apply (failsBy_followObject hfollow e.2).bind
  intro found hfound
  cases found with
  | none => exact failsBy_ok _
  | some item =>
    have hitem := throughout_of_followObject hroot h hfound
    exact failsBy_endpointsOf hroot hfollow hitem hkey Method.all

end Endpoints

end Document
end ApiScaffold
