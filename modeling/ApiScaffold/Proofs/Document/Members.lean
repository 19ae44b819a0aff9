import ApiScaffold.Proofs.Document.Expansion

namespace ApiScaffold.Document

namespace Traced
variable {α β : Type} {x : Traced α} {f : { a : α // x.result = .ok a } → Traced β}

theorem result_bind_attach_ok {a : α} (h : x.result = .ok a) :
    (x.attach >>= f).result = (f ⟨a, h⟩).result := by
  obtain ⟨notes, _ | b⟩ := x
  · cases h
  · cases h
    rfl

theorem result_bind_attach_error {e : Fault} (h : x.result = .error e) :
    (x.attach >>= f).result = .error e := by
  obtain ⟨notes, _ | b⟩ := x
  · cases h
    rfl
  · cases h

end Traced

section Branches
variable {d : Document} {first schema t : Tree} {entered : List Text} {around : List Nat}
  {r : Text} {h : schema.texts ⊆ first.texts ++ d.root.texts}

theorem texts_target_subset (h : schema.texts ⊆ first.texts ++ d.root.texts)
    (hf : (d.follow schema).result = .ok (some t)) : t.texts ⊆ first.texts ++ d.root.texts := by
  intro r hr
  rcases List.mem_append.mp (texts_follow_subset hf hr) with hm | hm
  · exact h hm
  · exact List.mem_append_right _ hm

theorem expand_of_inline (hr : reference? schema = none) :
    d.expand first entered around schema h = d.expandInline first entered around schema h := by
  rw [expand]
  split
  · rfl
  · simp_all
  · simp_all

theorem expand_of_entered (hr : reference? schema = some (.str r)) (hm : r ∈ entered) :
    d.expand first entered around schema h = Traced.fail (.expansionCycle r) := by
  rw [expand]
  split
  · simp_all
  · rename_i q hq
    obtain rfl : q = r := by simpa [hr, eq_comm] using hq
    exact dif_pos hm
  · simp_all

theorem expand_of_reference (hr : reference? schema = some (.str r)) (hm : r ∉ entered) :
    d.expand first entered around schema h = (d.follow schema).attach >>= fun
      | ⟨none, _⟩ => pure .empty
      | ⟨some _, hf⟩ => d.expandInline first (r :: entered) [] _ (texts_target_subset h hf) := by
  rw [expand]
  split
  · simp_all
  · rename_i q hq
    obtain rfl : q = r := by simpa [hr, eq_comm] using hq
    exact dif_neg hm
  · simp_all

theorem expand_of_not_text {v : Tree} (hr : reference? schema = some v) (hv : ∀ q, v ≠ .str q) :
    d.expand first entered around schema h = pure .empty := by
  rw [expand]
  split
  · simp_all
  · rename_i q hq
    exact absurd (Option.some.inj (hr.symm.trans hq)) (hv q)
  · rfl

end Branches

section Outcomes
variable {d : Document} {chain entered : List Text} {s : Site} {r : Text} {t : Tree}

/-- What a result says about a schema whose expansion watches the references `entered`: a result
that is no rejection is the outcome, and a rejection tells of a path that comes back. -/
structure Sound (d : Document) (entered : List Text) (s : Site) (o : Except Fault Members) :
    Prop where
  ends : ¬ Rejects o → Ends d s o
  returns : ∀ start trail, Path d (Passes d) start trail s → entered ⊆ trail → Rejects o →
    Returns d (Passes d) start

/-- What a followed reference says about the schema that stands for it. The references of the
chain are all inside of each other, though only the first of them is entered. -/
inductive Followed (d : Document) (chain : List Text) (s : Site) (r : Text) :
    Except Fault (Option Tree) → Prop
  | nowhere (h : Ends d s (.ok .empty)) : Followed d chain s r (.ok none)
  | found {t : Tree} (ht : reference? t = none) (h : ∀ o, Ends d ⟨[], t⟩ o → Ends d s o)
      (hpath : ∀ start trail, Path d (Passes d) start trail s →
        ∃ more, Path d (Passes d) start more ⟨[], t⟩ ∧ r :: trail ⊆ more) :
      Followed d chain s r (.ok (some t))
  | cycle {e : Fault} (he : e.isRejection = true)
      (h : ∀ start trail, Path d (Passes d) start trail s → chain ⊆ trail →
        Returns d (Passes d) start) :
      Followed d chain s r (.error e)

theorem ends_null : Ends d ⟨[], .null⟩ (.ok .empty) :=
  .composed (m := fun _ => .empty) (form_of_composed rfl (by simp)) (by
    intro t ht
    cases ht)

theorem Followed.of_target {further : Text} {o : Except Fault (Option Tree)}
    (hf : d.form s = .target r t) (h : Followed d (chain ++ [r]) ⟨[], t⟩ further o) :
    Followed d chain s r o := by
  have hstep {start : Site} {trail : List Text} (hpath : Path d (Passes d) start trail s) :
      Path d (Passes d) start (r :: trail) ⟨[], t⟩ :=
    hpath.step (.target hf)
  cases h with
  | nowhere h => exact .nowhere (.target hf h)
  | found ht h hpath =>
    refine .found ht (fun o ho => .target hf (h o ho)) fun start trail hs => ?_
    obtain ⟨more, hmore, hsub⟩ := hpath start (r :: trail) (hstep hs)
    exact ⟨more, hmore, fun q hq => hsub (List.mem_cons_of_mem _ hq)⟩
  | cycle he h =>
    refine .cycle he fun start trail hs hchain => h start (r :: trail) (hstep hs) ?_
    intro q hq
    rcases List.mem_append.mp hq with hq | hq
    · exact List.mem_cons_of_mem _ (hchain hq)
    · exact List.mem_singleton.mp hq ▸ List.mem_cons_self

theorem followed_followReference (hs : reference? s.schema = some (.str r)) :
    Followed d chain s r (d.followReference chain r).result := by
  fun_induction followReference d chain r generalizing s with
  | case1 chain r hr =>
    exact .cycle rfl fun start trail hpath hchain => ⟨trail, s, r, hpath, hs, hchain hr⟩
  | case2 chain r hr hl =>
    exact .nowhere (.nothing (by rw [form_of_reference hs, hl]))
  -- Null is looked up like a missing target; as a schema of its own it has no members.
  | case3 chain r hr hl =>
    exact .nowhere (.target (by rw [form_of_reference hs, hl]) ends_null)
  | case4 chain r hr next hne hl hn =>
    have hf : d.form s = .target r next := by rw [form_of_reference hs, hl]
    exact .found hn (fun o ho => .target hf ho) fun start trail hpath =>
      ⟨r :: trail, hpath.step (.target hf), List.Subset.refl _⟩
  | case5 chain r hr next hne hl further hn ih =>
    have hf : d.form s = .target r next := by rw [form_of_reference hs, hl]
    exact Followed.of_target hf (ih hn)
  | case6 chain r hr next hne hl v hv hn =>
    have hf : d.form s = .target r next := by rw [form_of_reference hs, hl]
    exact .nowhere (.target hf (.nothing (form_of_not_text hn hv)))

theorem Sound.of_ends {o : Except Fault Members} (h : Ends d s o) (ho : ¬ Rejects o) :
    Sound d entered s o :=
  ⟨fun _ => h, fun _ _ _ _ hr => absurd hr ho⟩

theorem Sound.ends_of_eq {o o' : Except Fault Members} (h : Sound d entered s o) (he : o = o')
    (ho : ¬ Rejects o') : Ends d s o' := by
  subst he
  exact h.ends ho

theorem not_rejects_ok {m : Members} : ¬ Rejects (.ok m) := by
  rintro ⟨e, he, -⟩
  cases he

theorem error_of_bind {α β ε : Type} {x : Except ε α} {f : α → Except ε β} {e : ε}
    (h : x >>= f = .error e) : x = .error e ∨ ∃ a, x = .ok a ∧ f a = .error e := by
  cases x with
  | error e' =>
    cases h
    exact .inl rfl
  | ok a => exact .inr ⟨a, rfl, h⟩

theorem ok_of_bind {α β ε : Type} {x : Except ε α} {f : α → Except ε β} {b : β}
    (h : x >>= f = .ok b) : ∃ a, x = .ok a ∧ f a = .ok b := by
  cases x with
  | error e => cases h
  | ok a => exact ⟨a, rfl, h⟩

theorem error_of_mapM {α β ε : Type} {f : α → Except ε β} {l : List α} {e : ε}
    (h : l.mapM f = .error e) : ∃ a ∈ l, f a = .error e := by
  induction l with
  | nil => cases h
  | cons a l ih =>
    rw [List.mapM_cons] at h
    rcases error_of_bind h with ha | ⟨b, -, h⟩
    · exact ⟨a, List.mem_cons_self, ha⟩
    · rcases error_of_bind h with hl | ⟨bs, -, h⟩
      · obtain ⟨c, hc, he⟩ := ih hl
        exact ⟨c, List.mem_cons_of_mem _ hc, he⟩
      · cases h

theorem eq_numberTooLong_of_nameOf {e : Fault} (h : nameOf t = .error e) : e = .numberTooLong := by
  unfold nameOf at h
  split at h
  · cases h
  · exact (Except.error.inj h).symm

theorem eq_numberTooLong_of_named {entries : Tree.Entries} {e : Fault}
    (h : named entries = .error e) : e = .numberTooLong := by
  unfold named at h
  rcases error_of_bind h with hm | ⟨names, -, h⟩
  · obtain ⟨entry, -, he⟩ := error_of_mapM hm
    rcases error_of_bind he with hn | ⟨name, -, he⟩
    · exact eq_numberTooLong_of_nameOf hn
    · cases he
  · cases h

theorem eq_numberTooLong_of_own {e : Fault} (h : Members.own t = .error e) :
    e = .numberTooLong := by
  unfold Members.own at h
  rcases error_of_bind h with hp | ⟨properties, -, h⟩
  · exact eq_numberTooLong_of_named hp
  · rcases error_of_bind h with hr | ⟨required, -, h⟩
    · obtain ⟨item, -, hi⟩ := error_of_mapM hr
      exact eq_numberTooLong_of_nameOf hi
    · cases h

/-- What a schema declares itself never leads to a rejection. -/
theorem not_rejects_withOwn {known : Members} : ¬ Rejects (withOwn t known) := by
  rintro ⟨e, he, hr⟩
  unfold withOwn at he
  rcases error_of_bind he with ho | ⟨own, -, he⟩
  · rw [eq_numberTooLong_of_own ho] at hr
    cases hr
  · cases he

/-- The members that were found, and none where there was a failure. -/
def found (x : Traced Members) : Members :=
  match x.result with
  | .ok m => m
  | .error _ => .empty

theorem result_eq_found {x : Traced Members} {m : Members} (h : x.result = .ok m) :
    x.result = .ok (found x) := by
  rw [found, h]

/-- Members are joined up to the first part that fails. -/
theorem result_joinAll (known : Members) (ts : List Tree) (x : Tree → Traced Members) :
    ((∀ t ∈ ts, (x t).result = .ok (found (x t))) ∧
      (joinAll known (ts.map x)).result =
        .ok ((ts.map fun t => found (x t)).foldl Members.join known)) ∨
    ∃ before t after e, ts = before ++ t :: after ∧
      (∀ b ∈ before, (x b).result = .ok (found (x b))) ∧ (x t).result = .error e ∧
      (joinAll known (ts.map x)).result = .error e := by
  induction ts generalizing known with
  | nil => exact .inl ⟨by simp, rfl⟩
  | cons t ts ih =>
    rw [List.map_cons, joinAll, Traced.result_bind]
    cases hx : (x t).result with
    | error e => exact .inr ⟨[], t, ts, e, rfl, by simp, hx, rfl⟩
    | ok m =>
      have ht := result_eq_found hx
      obtain rfl : m = found (x t) := Except.ok.inj (hx.symm.trans ht)
      have hhead {before : List Tree} (hb : ∀ b ∈ before, (x b).result = .ok (found (x b))) :
          ∀ b ∈ t :: before, (x b).result = .ok (found (x b)) := by
        intro b hb'
        rcases List.mem_cons.mp hb' with rfl | hb'
        · exact ht
        · exact hb b hb'
      rcases ih (known.join (found (x t))) with ⟨hm, hj⟩ | ⟨before, u, after, e, rfl, hb, hu, he⟩
      · exact .inl ⟨hhead hm, hj⟩
      · exact .inr ⟨t :: before, u, after, e, rfl, hhead hb, hu, he⟩

/-- A composition is sound when its parts are. -/
theorem sound_composed {x : Tree → Traced Members} (hf : d.form s = .composed)
    (hx : ∀ t ∈ s.parts, Sound d entered (s.part t) (x t).result) :
    Sound d entered s ((joinAll .empty (s.parts.map x)).result >>= withOwn s.schema) := by
  rcases result_joinAll .empty s.parts x with ⟨hm, hj⟩ | ⟨before, t, after, e, hp, hb, ht, hj⟩
  · rw [hj]
    have hparts : ∀ t ∈ s.parts, Ends d (s.part t) (.ok (found (x t))) :=
      fun t ht => (hx t ht).ends_of_eq (hm t ht) not_rejects_ok
    exact Sound.of_ends (.composed hf hparts) not_rejects_withOwn
  · rw [hj]
    have hpart : Sound d entered (s.part t) (x t).result := hx t (by simp [hp])
    have hbefore : ∀ b ∈ before, Ends d (s.part b) (.ok (found (x b))) :=
      fun b hm => (hx b (by simp [hp, hm])).ends_of_eq (hb b hm) not_rejects_ok
    have hpasses : ∀ b ∈ before, Passes d (s.part b) := fun b hm => ⟨_, hbefore b hm⟩
    refine ⟨fun ho => .failed hf hp hbefore (hpart.ends_of_eq ht ho), ?_⟩
    intro start trail hpath hsub ho
    exact hpart.returns start trail (hpath.step (.part hf hp hpasses)) hsub (ht ▸ ho)

/-- A schema that is a reference is sound when its target is. -/
theorem sound_reference {f : { o // (d.follow s.schema).result = .ok o } → Traced Members}
    (hr : reference? s.schema = some (.str r)) (hnone : ∀ h, f ⟨none, h⟩ = pure .empty)
    (hsome : ∀ t h, reference? t = none →
      Sound d (r :: entered) ⟨[], t⟩ (f ⟨some t, h⟩).result) :
    Sound d entered s ((d.follow s.schema).attach >>= f).result := by
  obtain ⟨o, hres, hfollow⟩ : ∃ o, (d.follow s.schema).result = o ∧ Followed d [] s r o := by
    refine ⟨_, rfl, ?_⟩
    rw [follow, hr]
    exact followed_followReference hr
  cases hfollow with
  | nowhere hends =>
    rw [Traced.result_bind_attach_ok hres, hnone]
    exact Sound.of_ends hends not_rejects_ok
  | found ht hlift hpaths =>
    rw [Traced.result_bind_attach_ok hres]
    obtain ⟨hends, hreturns⟩ := hsome _ hres ht
    refine ⟨fun ho => hlift _ (hends ho), ?_⟩
    intro start trail hpath hsub ho
    obtain ⟨more, hmore, htrail⟩ := hpaths start trail hpath
    have hentered := List.Subset.trans (List.cons_subset_cons r hsub) htrail
    exact hreturns start more hmore hentered ho
  | cycle he hreturns =>
    rw [Traced.result_bind_attach_error hres]
    refine ⟨fun hn => absurd ⟨_, rfl, he⟩ hn, ?_⟩
    intro start trail hpath _ _
    exact hreturns start trail hpath (List.nil_subset _)

/-- The expansion of a part, whose texts are among those of the schema around it. -/
def expandPart (d : Document) (first : Tree) (entered : List Text) (around : List Nat)
    (t : Tree) : Traced Members :=
  if h : t.texts ⊆ first.texts ++ d.root.texts then d.expand first entered around t h
  else pure .empty

theorem expandInline_composed {first schema : Tree} {around : List Nat}
    (hs : ∀ label t, schema ≠ .recurring label t)
    (h : schema.texts ⊆ first.texts ++ d.root.texts) :
    (d.expandInline first entered around schema h).result =
      ((joinAll .empty ((schema.get "allOf").items.map
        (d.expandPart first entered around))).result >>= withOwn schema) := by
  have hparts : (schema.get "allOf").items.attach.map (fun p =>
        d.expand first entered around p.1 fun _ hm => h (Tree.texts_get_items_subset p.2 hm)) =
      (schema.get "allOf").items.map (d.expandPart first entered around) := by
    conv => rhs; rw [← List.attach_map_subtype_val (schema.get "allOf").items, List.map_map]
    apply List.map_congr_left
    intro p _
    have hp : p.1.texts ⊆ first.texts ++ d.root.texts :=
      fun _ hm => h (Tree.texts_get_items_subset p.2 hm)
    rw [Function.comp_apply, expandPart]
    exact (dif_pos hp).symm
  rw [expandInline]
  · simp only [Traced.result_bind, Traced.result_pure, hparts]
    rfl
  · exact fun label t _ he => absurd he (hs label t)

end Outcomes

section Expansion
variable {d : Document} {first : Tree}

/-- By recursion with the expansion. A path is inside of every reference that was entered and of
all links of their chains, so it came back to one whenever either guard stops. -/
theorem sound_expand (entered : List Text) (around : List Nat) (schema : Tree)
    (h : schema.texts ⊆ first.texts ++ d.root.texts) :
    Sound d entered ⟨around, schema⟩ (d.expand first entered around schema h).result := by
  refine expand.induct d first
    (fun entered around schema h =>
      Sound d entered ⟨around, schema⟩ (d.expand first entered around schema h).result)
    (fun entered around schema h => reference? schema = none →
      Sound d entered ⟨around, schema⟩ (d.expandInline first entered around schema h).result)
    ?inline ?entered ?reference ?notText ?again ?inside ?composed entered around schema h
  case inline =>
    intro entered around schema h hr ih
    rw [expand_of_inline hr]
    exact ih hr
  case entered =>
    intro entered around schema h r hr hm
    rw [expand_of_entered hr hm]
    exact ⟨fun hn => absurd ⟨_, rfl, rfl⟩ hn, fun start trail hpath hsub _ =>
      ⟨trail, _, r, hpath, hr, hsub hm⟩⟩
  case reference =>
    intro entered around schema h r hr hm ih
    rw [expand_of_reference hr hm]
    exact sound_reference hr (fun _ => rfl) ih
  case notText =>
    intro entered around schema h v hv hr
    rw [expand_of_not_text hr hv]
    exact Sound.of_ends (.nothing (form_of_not_text hr hv)) not_rejects_ok
  case again =>
    intro entered around label t h ha h' hr
    rw [expandInline, if_pos ha]
    refine Sound.of_ends (.again (form_of_again hr rfl ha)) ?_
    rintro ⟨e, he, hreject⟩
    cases he
    cases hreject
  case inside =>
    intro entered around label t h ha h' ih hr
    rw [expandInline, if_neg ha]
    have hf : d.form ⟨around, .recurring label t⟩ = .inside label t := form_of_inside hr rfl ha
    obtain ⟨hends, hreturns⟩ := ih hr
    exact ⟨fun ho => .inside hf (hends ho), fun start trail hpath hsub ho =>
      hreturns start trail (hpath.step (.inside hf)) hsub ho⟩
  case composed =>
    intro entered around schema h hs parts h' ih hr
    have hplain : ∀ label t, schema ≠ .recurring label t := by
      rintro label t rfl
      exact hs label t h rfl HEq.rfl
    rw [expandInline_composed hplain h]
    apply sound_composed (s := ⟨around, schema⟩) (form_of_composed hr hplain)
    intro t ht
    have htexts : t.texts ⊆ first.texts ++ d.root.texts :=
      fun _ hm => h (Tree.texts_get_items_subset ht hm)
    rw [expandPart, dif_pos htexts]
    exact ih t ht

end Expansion

end ApiScaffold.Document
