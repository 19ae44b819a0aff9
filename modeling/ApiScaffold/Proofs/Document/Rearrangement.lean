import ApiScaffold.Proofs.Artifact.Order
import ApiScaffold.Proofs.Document.Acceptance
import ApiScaffold.Proofs.Document.Order

namespace ApiScaffold.Document
open ApiScaffold.Tree

section Outcomes
variable {α β : Type} {f : α → Except Fault β} (b : β) {l : List α} {bs : List β}

/-- What a reader makes of a value, with a default where it fails. -/
def outcome (f : α → Except Fault β) (b : β) (a : α) : β :=
  match f a with
  | .ok c => c
  | .error _ => b

variable {b} in
theorem outcome_of_ok {a : α} {c : β} (h : f a = .ok c) : outcome f b a = c := by
  rw [outcome, h]

/-- A list is read when each of its items is. -/
theorem mapM_eq_ok_iff :
    l.mapM f = .ok bs ↔ (∀ a ∈ l, f a = .ok (outcome f b a)) ∧ bs = l.map (outcome f b) := by
  constructor
  · intro h
    obtain rfl : bs = l.map (outcome f b) :=
      eq_map_of_mapM h fun a c hc => (outcome_of_ok hc).symm
    rw [mapM_eq_ok_iff_forall₂, List.forall₂_map_right_iff, List.forall₂_same] at h
    exact ⟨h, rfl⟩
  · rintro ⟨h, rfl⟩
    rw [mapM_eq_ok_iff_forall₂, List.forall₂_map_right_iff, List.forall₂_same]
    exact h

end Outcomes

section Readings
variable {policy : Name.Policy} {d d' : Document} {s : Spec}

def noTable : Table :=
  ⟨"", []⟩

/-- The table that an entity is read as. -/
def tableOf (policy : Name.Policy) (d : Document) (e : Tree × Tree) : Table :=
  outcome (d.entityTable policy) noTable e

/-- The functions that a path is read as. -/
def functionsOf (d : Document) (e : Tree × Tree) : List Endpoint :=
  outcome d.pathEndpoints [] e

theorem accepted_eq_ok_iff {s t : Spec} : accepted s = .ok t ↔ t = s ∧ s.collisions = [] := by
  unfold accepted
  split
  · rename_i h
    simp [List.isEmpty_iff.mp h, eq_comm]
  · rename_i h
    simp [List.isEmpty_iff.not.mp h]

/-- A document is read when each of its entities and paths is, and names do not collide. -/
theorem reading_eq_ok_iff : d.reading policy = .ok s ↔
    (∀ e ∈ d.entitySchemas, d.entityTable policy e = .ok (d.tableOf policy e)) ∧
      ∃ items, d.pathItems = some items ∧
        (∀ e ∈ items, d.pathEndpoints e = .ok (d.functionsOf e)) ∧
        s = ⟨d.entitySchemas.map (d.tableOf policy), items.flatMap d.functionsOf⟩ ∧
        s.collisions = [] := by
  constructor
  · intro h
    obtain ⟨tables, htables, h⟩ := ok_of_bind h
    obtain ⟨heach, rfl⟩ := (mapM_eq_ok_iff noTable).mp htables
    refine ⟨heach, ?_⟩
    split at h
    · cases h
    · rename_i items hitems
      obtain ⟨functions, hfunctions, h⟩ := ok_of_bind h
      obtain ⟨hpaths, rfl⟩ := (mapM_eq_ok_iff []).mp hfunctions
      obtain ⟨rfl, hcollisions⟩ := accepted_eq_ok_iff.mp h
      exact ⟨items, hitems, hpaths, rfl, hcollisions⟩
  · rintro ⟨heach, items, hitems, hpaths, rfl, hcollisions⟩
    have htables := (mapM_eq_ok_iff noTable).mpr ⟨heach, rfl⟩
    have hfunctions := (mapM_eq_ok_iff []).mpr ⟨hpaths, rfl⟩
    rw [reading, ok_bind htables, hitems]
    exact (ok_bind hfunctions).trans (accepted_eq_ok_iff.mpr ⟨rfl, hcollisions⟩)

end Readings

section Rearrangement
variable {policy : Name.Policy} {d d' : Document} {s s' : Spec}

theorem SameParts.tableOf_eq (h : SameParts policy d d') : d'.tableOf policy = d.tableOf policy := by
  funext e
  rw [tableOf, tableOf, h.entityTable]

theorem SameParts.functionsOf_eq (h : SameParts policy d d') : d'.functionsOf = d.functionsOf := by
  funext e
  rw [functionsOf, functionsOf, h.pathEndpoints]

/-- The modules that list everything, with an interface for every entity and a line for every
function, in the order of the document. -/
structure Lists (table : Tree × Tree → Table) (functions : Tree × Tree → List Endpoint)
    (d : Document) (files : List Artifact) : Prop where
  types : Artifact.textAt files Config.standard.typesFile =
    some (Client.moduleOf "\n\n" (d.entitySchemas.map fun e => Client.interfaceText (table e)))
  index : ∃ items, d.pathItems = some items ∧
    Artifact.textAt files (Config.standard.hooksDir ++ "/index.ts") =
      some (Client.moduleOf "\n"
        ((items.flatMap functions).map fun f => Client.exportLine (Name.hook f.name)))

/-- The files of two documents that are read from the same entities and paths: nothing but the
modules that list them shows in which order these stand. -/
structure SameFiles (policy : Name.Policy) (d d' : Document) (files files' : List Artifact) :
    Prop where
  entities : d.entitySchemas.Perm d'.entitySchemas
  items : Option.Rel List.Perm d.pathItems d'.pathItems
  paths : (Artifact.paths files).Perm (Artifact.paths files')
  text : ∀ p, p ≠ Config.standard.typesFile → p ≠ Config.standard.hooksDir ++ "/index.ts" →
    Artifact.textAt files p = Artifact.textAt files' p
  left : Lists (d.tableOf policy) d.functionsOf d files
  right : Lists (d.tableOf policy) d.functionsOf d' files'

theorem SameParts.exists_reading (h : SameParts policy d d') (hs : d.reading policy = .ok s) :
    ∃ s', d'.reading policy = .ok s' ∧ s.Shuffled s' := by
  obtain ⟨heach, items, hitems, hpaths, rfl, hcollisions⟩ := reading_eq_ok_iff.mp hs
  obtain ⟨items', hitems', hperm⟩ : ∃ items', d'.pathItems = some items' ∧ items.Perm items' := by
    have hrel := h.paths
    rw [hitems] at hrel
    cases hd : d'.pathItems with
    | none =>
      rw [hd] at hrel
      cases hrel
    | some items' =>
      rw [hd] at hrel
      cases hrel with
      | some hperm => exact ⟨items', rfl, hperm⟩
  have hshuffled : Spec.Shuffled ⟨d.entitySchemas.map (d.tableOf policy), items.flatMap d.functionsOf⟩
      ⟨d'.entitySchemas.map (d.tableOf policy), items'.flatMap d.functionsOf⟩ :=
    ⟨h.entities.map _, hperm.flatMap_right _⟩
  refine ⟨_, reading_eq_ok_iff.mpr ⟨?_, items', hitems', ?_, ?_, hshuffled.collisions hcollisions⟩,
    hshuffled⟩
  · intro e he
    rw [h.entityTable, h.tableOf_eq]
    exact heach e (h.entities.mem_iff.mpr he)
  · intro e he
    rw [h.pathEndpoints, h.functionsOf_eq]
    exact hpaths e (hperm.mem_iff.mpr he)
  · rw [h.tableOf_eq, h.functionsOf_eq]

theorem SameParts.symm (h : SameParts policy d d') : SameParts policy d' d := by
  refine ⟨h.entities.symm, ?_, h.entityTable.symm, h.pathEndpoints.symm⟩
  rcases option_rel_iff.mp h.paths with ⟨hd, hd'⟩ | ⟨items, items', hd, hd', hperm⟩
  · rw [hd, hd']
    exact .none
  · rw [hd, hd']
    exact .some hperm.symm

/-- The files of what was read, each of which has a path of its own. -/
theorem artifacts_of_reading (hs : d.reading policy = .ok s) :
    s.artifacts .standard policy = s.rendered .standard policy ∧
      (Artifact.paths (s.rendered .standard policy)).Nodup := by
  obtain ⟨-, items, -, -, rfl, hcollisions⟩ := reading_eq_ok_iff.mp hs
  have hlaid := Spec.laidOut_of_distinct .standard policy _ (by decide) (by decide)
    ((Spec.distinct_iff _).mpr hcollisions)
  exact ⟨hlaid.kept, hlaid.kept ▸ hlaid.apart⟩

theorem lists_of_reading (hs : d.reading policy = .ok s) :
    Lists (d.tableOf policy) d.functionsOf d (s.artifacts .standard policy) := by
  obtain ⟨hkept, hapart⟩ := artifacts_of_reading hs
  obtain ⟨-, items, hitems, -, rfl, -⟩ := reading_eq_ok_iff.mp hs
  have htypes := Spec.textAt_types hapart
  rw [List.map_map] at htypes
  rw [hkept]
  exact ⟨htypes, items, hitems, Spec.textAt_index hapart⟩

theorem SameParts.sameFiles (h : SameParts policy d d') (hs : d.reading policy = .ok s)
    (hs' : d'.reading policy = .ok s') :
    SameFiles policy d d' (s.artifacts .standard policy) (s'.artifacts .standard policy) := by
  have hshuffled : s.Shuffled s' := by
    obtain ⟨t, ht, hshuffled⟩ := h.exists_reading hs
    exact Except.ok.inj (ht.symm.trans hs') ▸ hshuffled
  obtain ⟨hkept, hapart⟩ := artifacts_of_reading hs
  obtain ⟨hkept', -⟩ := artifacts_of_reading hs'
  have hright := lists_of_reading hs'
  rw [h.tableOf_eq, h.functionsOf_eq] at hright
  refine ⟨h.entities, h.paths, ?_, ?_, lists_of_reading hs, hright⟩
  · rw [hkept, hkept']
    exact hshuffled.paths_rendered
  · rw [hkept, hkept']
    exact fun p htypes hindex => hshuffled.textAt_eq hapart htypes hindex

end Rearrangement

section Rejections
variable {policy : Name.Policy} {d d' : Document} {root root' : Tree}

theorem error_of_followReference {chain : List Text} {r : Text} {e : Fault}
    (h : (d.followReference chain r).result = .error e) : e.isRejection = true := by
  fun_induction followReference d chain r with
  | case1 =>
    cases h
    rfl
  | case2 => cases h
  | case3 => cases h
  | case4 => cases h
  | case5 chain r hr next hne hl further hn ih => exact ih h
  | case6 => cases h

/-- A document without an unreadable name or a value inside itself, as far as these are no faults of
the kind, is not given up for anything else but its contents, in whatever order it is read. -/
theorem SameParts.failsBy {p : Fault → Prop} (h : SameParts policy d d')
    (hp : ∀ e, e.isRejection = true → p e) (hroot : Throughout (Spares p) d.root) :
    FailsBy p (d'.reading policy) := by
  have hfollow (t : Tree) : FailsBy p (d.follow t).result :=
    failsBy_follow_of_reference (fun _ _ he => hp _ (error_of_followReference he)) t
  have htables : FailsBy p (d'.entitySchemas.mapM (d'.entityTable policy)) := by
    rw [h.entityTable]
    apply FailsBy.mapM
    intro e he
    exact failsBy_entity hroot (fun _ _ _ _ hr => hp _ hr) (h.entities.mem_iff.mpr he)
  unfold reading
  apply htables.bind
  intro tables _
  rcases option_rel_iff.mp h.paths with ⟨-, hd'⟩ | ⟨items, items', hitems, hd', hperm⟩
  · rw [hd']
    intro e he
    cases he
    exact hp _ rfl
  · rw [hd']
    have hfunctions : FailsBy p (items'.mapM d'.pathEndpoints) := by
      rw [h.pathEndpoints]
      apply FailsBy.mapM
      intro e he
      exact failsBy_item hroot hfollow hitems (hperm.mem_iff.mpr he)
    apply hfunctions.bind
    intro functions _ e he
    unfold accepted at he
    split at he
    · cases he
    · cases he
      exact hp _ rfl

theorem sameParts_refl (policy : Name.Policy) (d : Document) : SameParts policy d d := by
  refine ⟨.refl _, ?_, rfl, rfl⟩
  cases d.pathItems with
  | none => exact .none
  | some items => exact .some (.refl items)

/-- What a document fails by, if nothing in it is in the way of reading. -/
theorem failsBy_spec {p : Fault → Prop} (policy : Name.Policy)
    (hp : ∀ e, e.isRejection = true → p e) (hroot : Throughout (Spares p) root) :
    FailsBy p (spec policy root).result := by
  intro e he
  rw [result_spec] at he
  split at he
  · cases he
    exact hp _ rfl
  · exact (sameParts_refl policy ⟨root⟩).failsBy hp hroot e he

/-- Reading never ends only where an array of itself stands in the document. -/
theorem exists_arrayOfItself_of_spec (h : (spec policy root).result = .error .looping) :
    ∃ t, Within t root ∧ ArrayOfItself t := by
  have hfails : FailsBy (fun e => e = .looping → ∃ t, Within t root ∧ ArrayOfItself t)
      (spec policy root).result := by
    refine failsBy_spec policy ?_ (throughout_spares ?_ ?_ fun t ht hself _ => ⟨t, ht, hself⟩)
    · rintro e hr rfl
      cases hr
    · rintro ⟨⟩
    · rintro ⟨⟩
  exact hfails _ h rfl

/-- A legible document is given up for its contents alone. -/
theorem failsBy_spec_of_legible (policy : Name.Policy) (h : Throughout Legible root) :
    FailsBy (·.isRejection = true) (spec policy root).result :=
  failsBy_spec policy (fun _ hr => hr) (Throughout.spares_of_legible h)

theorem Rearranged.isSome_map? (h : Rearranged root root') :
    root.map?.isSome = root'.map?.isSome := by
  obtain ⟨mid, hpaths, hentities⟩ := h
  obtain ⟨key, path, hpath, -, -⟩ := entityPath_cons ⟨root⟩
  rw [hpath] at hentities
  exact hpaths.isSome_map?.trans hentities.isSome_map?

theorem Rearranged.result_spec (h : Rearranged root root') (policy : Name.Policy)
    (hroot : root.map?.isSome = true) :
    (spec policy root).result = reading policy ⟨root⟩ ∧
      (spec policy root').result = reading policy ⟨root'⟩ := by
  have hobject (t : Tree) (ht : t.map?.isSome = true) :
      (spec policy t).result = reading policy ⟨t⟩ := by
    rw [Document.result_spec, if_neg]
    rwa [Option.isNone_iff_eq_none, ← ne_eq, ← Option.isSome_iff_ne_none]
  exact ⟨hobject root hroot, hobject root' (h.isSome_map? ▸ hroot)⟩

/-- The order of the paths and of the entities decides neither whether a document has a
specification nor what is generated from it, except in the modules that list everything. It can
decide why there is none: then the reason is one to reject the document if it is legible. -/
theorem spec_rearranged (policy : Name.Policy) (h : Rearranged root root') :
    ((∃ s, (spec policy root).result = .ok s) ↔ ∃ s, (spec policy root').result = .ok s) ∧
    (Throughout Legible root → ∀ e, (spec policy root).result = .error e ∨
      (spec policy root').result = .error e → e.isRejection = true) ∧
    ∀ s s', (spec policy root).result = .ok s → (spec policy root').result = .ok s' →
      SameFiles policy ⟨root⟩ ⟨root'⟩ (s.artifacts .standard policy)
        (s'.artifacts .standard policy) := by
  have hparts := h.sameParts policy
  cases hroot : root.map?.isSome with
  | false =>
    have hnone : (spec policy root).result = .error .notObject := by
      rw [Document.result_spec, if_pos (by simpa using hroot)]
    have hnone' : (spec policy root').result = .error .notObject := by
      rw [Document.result_spec, if_pos (by simpa [h.isSome_map?] using hroot)]
    rw [hnone, hnone']
    refine ⟨Iff.rfl, ?_, ?_⟩
    · rintro - e (he | he)
      · cases he
        rfl
      · cases he
        rfl
    · intro s s' hs
      cases hs
  | true =>
    obtain ⟨hspec, hspec'⟩ := h.result_spec policy hroot
    rw [hspec, hspec']
    refine ⟨⟨?_, ?_⟩, ?_, fun s s' => hparts.sameFiles⟩
    · rintro ⟨s, hs⟩
      obtain ⟨s', hs', -⟩ := hparts.exists_reading hs
      exact ⟨s', hs'⟩
    · rintro ⟨s', hs'⟩
      obtain ⟨s, hs, -⟩ := hparts.symm.exists_reading hs'
      exact ⟨s, hs⟩
    · intro hlegible e he
      have hroot := Throughout.spares_of_legible (p := (·.isRejection = true)) hlegible
      rcases he with he | he
      · exact (sameParts_refl policy ⟨root⟩).failsBy (fun _ hr => hr) hroot e he
      · exact hparts.failsBy (fun _ hr => hr) hroot e he

end Rejections

section Examples
variable {entities entities' paths paths' : Entries}

theorem rearranged_descriptionOf (he : entities.Perm entities') (hek : (textKeys entities).Nodup)
    (hp : paths.Perm paths') (hpk : (textKeys paths).Nodup) :
    Rearranged (descriptionOf entities paths) (descriptionOf entities' paths') := by
  have hpaths :
      At Reordered ["paths"] (descriptionOf entities paths) (descriptionOf entities paths') :=
    .inr ⟨_, _, rfl, rfl, .cons ⟨rfl, .inl rfl⟩ (.cons ⟨rfl, .inr ⟨rfl, .map hp hpk⟩⟩ .nil)⟩
  have hentities :
      At Reordered ["definitions"] (descriptionOf entities paths') (descriptionOf entities' paths') :=
    .inr ⟨_, _, rfl, rfl, .cons ⟨rfl, .inr ⟨rfl, .map he hek⟩⟩ (.cons ⟨rfl, .inl rfl⟩ .nil)⟩
  exact ⟨_, hpaths, hentities⟩

theorem rearranged_defined (h : entities.Perm entities') (hk : (textKeys entities).Nodup) :
    Rearranged (defined entities) (defined entities') := by
  have hat : At Reordered ["definitions"] (defined entities) (defined entities') :=
    .inr ⟨_, _, rfl, rfl, .cons ⟨rfl, .inr ⟨rfl, .map h hk⟩⟩ .nil⟩
  exact ⟨defined entities, .inl rfl, hat⟩

theorem result_spec_defined (entities : Entries) :
    (spec policy (defined entities)).result =
      entities.mapM (entityTable policy ⟨defined entities⟩) >>= fun tables =>
        accepted ⟨tables, []⟩ := by
  have hobject : ¬ (defined entities).map?.isNone = true := Bool.false_ne_true
  rw [Document.result_spec, if_neg hobject]
  rfl

/-- An entity that refers to itself. -/
def selfReferring : Tree :=
  .map [(.str "$ref", .str "#/definitions/B")]

/-- An entity with a name that cannot be written, and one that refers to itself. -/
def unwritableEntity : Tree × Tree :=
  (.int unwritable, .map [])

def selfReferringEntity : Tree × Tree :=
  (.str "B", selfReferring)

theorem entityTable_selfReferring (policy : Name.Policy) {d : Document}
    (h : d.lookup "#/definitions/B" = some selfReferring) :
    d.entityTable policy selfReferringEntity =
      .error (.referenceCycle ["#/definitions/B", "#/definitions/B"]) := by
  have hreference : reference? selfReferring = some (.str "#/definitions/B") := rfl
  have hfollow : (d.follow selfReferring).result =
      .error (.referenceCycle ["#/definitions/B", "#/definitions/B"]) := by
    rw [follow, hreference]
    change (d.followReference [] "#/definitions/B").result = _
    rw [result_followReference, if_neg List.not_mem_nil, h]
    change d.followFrom ["#/definitions/B"] selfReferring = _
    rw [followFrom, hreference]
    change (d.followReference ["#/definitions/B"] "#/definitions/B").result = _
    rw [result_followReference, if_pos (List.mem_singleton.mpr rfl)]
    rfl
  have hname : nameOf (.str "B") = .ok (Text.ofString "B") := rfl
  rw [selfReferringEntity, entityTable, hname]
  change (table policy d "B" selfReferring).result = _
  rw [table, Traced.result_bind, members, expand_of_failed hreference List.not_mem_nil hfollow]
  rfl

/-- The kennel from its end. -/
def turned : Tree :=
  descriptionOf kennelEntities.reverse kennelPaths.reverse

/-- An entity that refers to itself before one without properties, and behind it. -/
def circularFirst : Tree :=
  defined [selfReferringEntity, (.str "C", .map [])]

def circularLast : Tree :=
  defined [(.str "C", .map []), selfReferringEntity]

/-- The kennel has the same files in both orders, and the circular description is rejected in
both. -/
theorem spec_rearranged_kennel :
    (Rearranged kennel turned ∧
      ∃ s s', (spec .standard kennel).result = .ok s ∧ (spec .standard turned).result = .ok s' ∧
        GetsPets s.functions ∧
        SameFiles .standard ⟨kennel⟩ ⟨turned⟩ (s.artifacts .standard .standard)
          (s'.artifacts .standard .standard)) ∧
    Rearranged circularFirst circularLast ∧ Throughout Legible circularFirst ∧
      ∃ e e', (spec .standard circularFirst).result = .error e ∧ e.isRejection = true ∧
        (spec .standard circularLast).result = .error e' ∧ e'.isRejection = true := by
  constructor
  · have hturned : Rearranged kennel turned :=
      rearranged_descriptionOf (List.reverse_perm _).symm (by decide) (List.reverse_perm _).symm
        (by decide)
    obtain ⟨fs, hgets, hs⟩ := spec_kennel
    obtain ⟨s', hs'⟩ := (spec_rearranged .standard hturned).1.mp ⟨_, hs⟩
    exact ⟨hturned, _, s', hs, hs', hgets, (spec_rearranged .standard hturned).2.2 _ _ hs hs'⟩
  · have hcircular : Rearranged circularFirst circularLast :=
      rearranged_defined (.swap _ _ _) (by decide)
    have hlegible : Throughout Legible circularFirst := by
      decide +kernel
    have hlookup : lookup ⟨circularFirst⟩ "#/definitions/B" = some selfReferring := rfl
    have htable := entityTable_selfReferring .standard hlookup
    have herror : (spec .standard circularFirst).result =
        .error (.referenceCycle ["#/definitions/B", "#/definitions/B"]) := by
      rw [circularFirst] at htable ⊢
      rw [result_spec_defined, List.mapM_cons, htable]
      rfl
    obtain ⟨hexists, hrejection, -⟩ := spec_rearranged .standard hcircular
    cases hlast : (spec .standard circularLast).result with
    | ok s =>
      obtain ⟨s', hs'⟩ := hexists.mpr ⟨s, hlast⟩
      cases herror.symm.trans hs'
    | error e' =>
      exact ⟨hcircular, hlegible, _, e', herror, hrejection hlegible _ (.inl herror), rfl,
        hrejection hlegible _ (.inr hlast)⟩

/-- What stops the reading first depends on the order. -/
theorem rearranged_unwritable :
    Rearranged (defined [unwritableEntity, selfReferringEntity])
        (defined [selfReferringEntity, unwritableEntity]) ∧
      (spec .standard (defined [unwritableEntity, selfReferringEntity])).result =
        .error .numberTooLong ∧
      ∃ e, (spec .standard (defined [selfReferringEntity, unwritableEntity])).result = .error e ∧
        e.isRejection = true := by
  have hlookup : lookup ⟨defined [selfReferringEntity, unwritableEntity]⟩ "#/definitions/B" =
      some selfReferring := rfl
  have htable := entityTable_selfReferring .standard hlookup
  refine ⟨rearranged_defined (.swap _ _ _) (by decide), ?_,
    .referenceCycle ["#/definitions/B", "#/definitions/B"], ?_, rfl⟩
  · rw [result_spec_defined, List.mapM_cons, unwritableEntity, entityTable,
      nameOf_of_not_isWritable isWritable_unwritable]
    rfl
  · rw [result_spec_defined, List.mapM_cons, htable]
    rfl

end Examples

end ApiScaffold.Document
