import ApiScaffold.Proofs.Assoc.Keys
import ApiScaffold.Proofs.Document.Chains
import ApiScaffold.Proofs.Document.Single

namespace ApiScaffold.Document
variable {d : Document} {t u raw p : Tree} {refs : List Text} {raws : List Tree} {name : Text}

section Following

theorem not_endless_of_chain (h : Chain d t refs u) (hu : ∀ w, ¬ d.Link u w) : ¬ d.Endless t := by
  rw [endless_iff, not_not]
  exact h.acc hu

theorem exists_result_follow (h : ¬ d.Endless t) : ∃ o, (d.follow t).result = .ok o := by
  obtain ⟨refs, u, hchain, -, hstop⟩ := stop_follow d t
  generalize (d.follow t).result = o at hstop
  cases hstop with
  | found _ => exact ⟨_, rfl⟩
  | broken _ => exact ⟨_, rfl⟩
  | again hu hr => exact absurd (hchain.endless hu hr) h

theorem result_follow_eq_some_iff :
    (d.follow t).result = .ok (some u) ↔ (∃ refs, Chain d t refs u) ∧ reference? u = none := by
  obtain ⟨refs, v, hchain, -, hstop⟩ := stop_follow d t
  generalize (d.follow t).result = o at hstop
  constructor
  · rintro rfl
    cases hstop with
    | found hu => exact ⟨⟨refs, hchain⟩, hu⟩
  · rintro ⟨⟨more, hmore⟩, hu⟩
    have hlast : ∀ w, ¬ d.Link u w := fun _ => not_link_of_none hu
    cases hstop with
    | found hv => rw [hmore.end_unique hlast hchain fun _ => not_link_of_none hv]
    | broken hv =>
      obtain rfl := hmore.end_unique hlast hchain fun _ => hv.not_link
      obtain ⟨x, hx, -⟩ := hv
      cases hu.symm.trans hx
    | again hv hr => exact absurd (hchain.endless hv hr) (not_endless_of_chain hmore hlast)

end Following

section Declarations

/-- An entry stands for the node that its chain of references ends at. -/
def StandsFor (d : Document) (raw p : Tree) : Prop :=
  (∃ refs, Chain d raw refs p) ∧ reference? p = none

theorem StandsFor.not_endless (h : d.StandsFor raw p) : ¬ d.Endless raw := by
  obtain ⟨⟨refs, hchain⟩, hp⟩ := h
  exact not_endless_of_chain hchain fun _ => not_link_of_none hp

theorem StandsFor.unique {q : Tree} (h : d.StandsFor raw p) (h' : d.StandsFor raw q) : p = q := by
  obtain ⟨⟨refs, hchain⟩, hp⟩ := h
  obtain ⟨⟨more, hmore⟩, hq⟩ := h'
  exact hchain.end_unique (fun _ => not_link_of_none hp) hmore fun _ => not_link_of_none hq

theorem Broken.not_standsFor (h : d.Broken raw) : ¬ d.StandsFor raw p := by
  rintro ⟨⟨refs, hchain⟩, hp⟩
  have hend : ∀ w, ¬ d.Link p w := fun _ => not_link_of_none hp
  obtain rfl := hchain.end_unique hend (.nil raw) fun _ => h.not_link
  obtain ⟨v, hv, -⟩ := h
  cases hp.symm.trans hv

/-- The parameters that entries stand for, under their names. Only a map has a name; an entry that
stands for something without one, or for nothing, declares no parameter. -/
inductive Declarations (d : Document) : List Tree → Assoc Tree → Prop
  | nil : Declarations d [] []
  | named {raw p : Tree} {name : Text} {raws : List Tree} {declared : Assoc Tree}
      (stands : d.StandsFor raw p) (hname : nonEmpty? (p.get "name").str? = some name)
      (rest : Declarations d raws declared) : Declarations d (raw :: raws) ((name, p) :: declared)
  | passed {raw : Tree} {raws : List Tree} {declared : Assoc Tree}
      (unnamed : ∀ p, d.StandsFor raw p → nonEmpty? (p.get "name").str? = none)
      (rest : Declarations d raws declared) : Declarations d (raw :: raws) declared

theorem exists_declarations (d : Document) (raws : List Tree) :
    ∃ declared, Declarations d raws declared := by
  induction raws with
  | nil => exact ⟨[], .nil⟩
  | cons raw rest ih =>
    obtain ⟨declared, hrest⟩ := ih
    by_cases hnamed : ∃ p name, d.StandsFor raw p ∧ nonEmpty? (p.get "name").str? = some name
    · obtain ⟨p, name, hstands, hname⟩ := hnamed
      exact ⟨(name, p) :: declared, .named hstands hname hrest⟩
    · refine ⟨declared, .passed (fun p hp => ?_) hrest⟩
      rw [Option.eq_none_iff_forall_ne_some]
      exact fun name hname => hnamed ⟨p, name, hp, hname⟩

end Declarations

section Merging
variable {declared : Assoc Tree}

theorem map?_of_named (h : nonEmpty? (p.get "name").str? = some name) : p.map?.isSome = true := by
  cases hmap : p.map? with
  | some entries => rfl
  | none =>
    rw [Tree.get, Tree.get?, hmap] at h
    cases h

theorem result_followObject {o : Option Tree} (h : (d.follow raw).result = .ok o) :
    (d.followObject raw).result = .ok (o.filter (·.map?.isSome)) := by
  rw [followObject, Traced.result_bind_of_ok h]
  rfl

theorem result_mergeFrom_named {merged : Assoc Tree} (h : d.StandsFor raw p)
    (hname : nonEmpty? (p.get "name").str? = some name) :
    (d.mergeFrom merged (raw :: raws)).result = (d.mergeFrom (merged.put name p) raws).result := by
  have hfollow := result_followObject (result_follow_eq_some_iff.mpr h)
  rw [mergeFrom, Traced.result_bind_of_ok hfollow, Option.filter_some, if_pos (map?_of_named hname)]
  simp only [hname]

theorem result_mergeFrom_passed {merged : Assoc Tree} (hends : ¬ d.Endless raw)
    (h : ∀ p, d.StandsFor raw p → nonEmpty? (p.get "name").str? = none) :
    (d.mergeFrom merged (raw :: raws)).result = (d.mergeFrom merged raws).result := by
  obtain ⟨o, ho⟩ := exists_result_follow hends
  rw [mergeFrom, Traced.result_bind_of_ok (result_followObject ho)]
  cases o with
  | none => rfl
  | some p =>
    rw [Option.filter_some]
    by_cases hmap : p.map?.isSome = true
    · rw [if_pos hmap]
      simp only [h p (result_follow_eq_some_iff.mp ho)]
      rfl
    · rw [if_neg hmap]
      rfl

/-- One declaration after the other is put under its name. -/
theorem result_mergeFrom (hd : Declarations d raws declared) (h : ∀ raw ∈ raws, ¬ d.Endless raw)
    (merged : Assoc Tree) : (d.mergeFrom merged raws).result = .ok (merged.putAll declared) := by
  induction hd generalizing merged with
  | nil => rfl
  | @named raw p name rest declared hstands hname _ ih =>
    rw [result_mergeFrom_named hstands hname]
    exact ih (fun raw hm => h raw (List.mem_cons_of_mem _ hm)) (merged.put name p)
  | passed hunnamed _ ih =>
    rw [result_mergeFrom_passed (h _ List.mem_cons_self) hunnamed]
    exact ih (fun raw hm => h raw (List.mem_cons_of_mem _ hm)) merged

/-- What a path and an operation declare together: every name once, in the order in which the names
come up first, with the last declaration of the name. -/
theorem mergeParameters_declared (shared own : Tree)
    (h : ∀ raw ∈ shared.items ++ own.items, ¬ d.Endless raw) :
    (∃ declared, Declarations d (shared.items ++ own.items) declared) ∧
      ∀ declared, Declarations d (shared.items ++ own.items) declared →
        ∃ merged : Assoc Tree, (d.mergeParameters shared own).result = .ok (merged.map (·.2)) ∧
          merged.keys.Nodup ∧ merged.keys = declared.keys.eraseDups ∧
          ∀ e, e ∈ merged ↔ Assoc.IsLast e declared := by
  refine ⟨exists_declarations d _, fun declared hd => ⟨Assoc.ofList declared, ?_,
    Assoc.nodup_keys_ofList _, Assoc.keys_ofList _, fun _ => Assoc.mem_ofList_iff⟩⟩
  rw [mergeParameters, Traced.result_bind_of_ok (result_mergeFrom hd h [])]
  rfl

/-- A document that keeps two parameters under three names. -/
def keeping : Document :=
  ⟨.map [(.str "parameters", .map [(.str "Id", placed "id" "path"),
    (.str "Page", referring "#/parameters/Offset"), (.str "Offset", placed "page" "query")])]⟩

def keptShared : Tree :=
  .list [referring "#/parameters/Id", referring "#/parameters/Page", referring "#/parameters/Sort"]

def keptOwn : Tree :=
  .list [.str "id", placed "id" "query"]

theorem standsFor_id : keeping.StandsFor (referring "#/parameters/Id") (placed "id" "path") :=
  ⟨⟨["#/parameters/Id"], .cons rfl rfl (.nil _)⟩, rfl⟩

theorem standsFor_page :
    keeping.StandsFor (referring "#/parameters/Page") (placed "page" "query") :=
  ⟨⟨["#/parameters/Page", "#/parameters/Offset"], .cons rfl rfl (.cons rfl rfl (.nil _))⟩, rfl⟩

theorem broken_sort : keeping.Broken (referring "#/parameters/Sort") := by
  refine ⟨_, rfl, fun r hr => ?_⟩
  obtain rfl := Tree.str.inj hr
  rfl

/-- The operation declares the parameter of the path anew, at its place. -/
theorem mergeParameters_declared_kept :
    (∀ raw ∈ keptShared.items ++ keptOwn.items, ¬ keeping.Endless raw) ∧
      Declarations keeping (keptShared.items ++ keptOwn.items)
        [("id", placed "id" "path"), ("page", placed "page" "query"),
          ("id", placed "id" "query")] ∧
      ∃ merged : Assoc Tree,
        (keeping.mergeParameters keptShared keptOwn).result = .ok (merged.map (·.2)) ∧
        merged.keys = ["id", "page"].map Text.ofString ∧
        (Text.ofString "id", placed "id" "query") ∈ merged := by
  have hid : keeping.StandsFor (.str "id") (.str "id") := ⟨⟨[], .nil _⟩, rfl⟩
  have hown : keeping.StandsFor (placed "id" "query") (placed "id" "query") := ⟨⟨[], .nil _⟩, rfl⟩
  have hends : ∀ raw ∈ keptShared.items ++ keptOwn.items, ¬ keeping.Endless raw := by
    intro raw hm
    simp only [keptShared, keptOwn, Tree.items, Tree.list?, Tree.plain, Option.getD_some,
      List.cons_append, List.nil_append, List.mem_cons, List.not_mem_nil, or_false] at hm
    rcases hm with rfl | rfl | rfl | rfl | rfl
    · exact standsFor_id.not_endless
    · exact standsFor_page.not_endless
    · exact not_endless_of_chain (.nil _) fun _ => broken_sort.not_link
    · exact hid.not_endless
    · exact hown.not_endless
  have hdeclared : Declarations keeping (keptShared.items ++ keptOwn.items)
      [("id", placed "id" "path"), ("page", placed "page" "query"),
        ("id", placed "id" "query")] := by
    refine .named standsFor_id (by decide) (.named standsFor_page (by decide) ?_)
    refine .passed (fun p hp => absurd hp broken_sort.not_standsFor) (.passed (fun p hp => ?_) ?_)
    · rw [← hid.unique hp]
      rfl
    · exact .named hown (by decide) .nil
  obtain ⟨merged, hresult, -, hkeys, hmem⟩ :=
    (mergeParameters_declared keptShared keptOwn hends).2 _ hdeclared
  refine ⟨hends, hdeclared, merged, hresult, hkeys.trans (by decide), (hmem _).mpr ?_⟩
  exact ⟨[_, _], [], rfl, List.not_mem_nil⟩

end Merging

end ApiScaffold.Document
