import ApiScaffold.Proofs.Document.Correspondence.Tables
import ApiScaffold.Proofs.Document.Rearrangement
import ApiScaffold.Proofs.Tree.Relinked

namespace ApiScaffold.Document
open ApiScaffold.Tree

/-- What a reference to an entity is once the entities stand among the components. -/
def moved (r : Text) : Text :=
  match r.dropPrefix? (Text.ofString "#/definitions/") with
  | some rest => Text.ofString "#/components/schemas/" ++ rest
  | none => r

/-- The description with its entities under `definitions`. -/
def swagger (entities paths : Tree) : Tree :=
  .map [(.str "definitions", entities), (.str "paths", paths)]

/-- The same description with its entities among the components. -/
def openapi (entities paths : Tree) : Tree :=
  .map [(.str "components", .map [(.str "schemas", entities.relinked moved)]),
    (.str "paths", paths.relinked moved)]

/-- A reference to none of the places where only one of the two descriptions has something. -/
structure Portable (r : Text) : Prop where
  components : ¬ Text.ofString "#/components" <+: r
  definitions : r ≠ "#/definitions"

instance : DecidablePred Portable := fun r =>
  decidable_of_iff (¬ Text.ofString "#/components" <+: r ∧ r ≠ "#/definitions")
    ⟨fun h => ⟨h.1, h.2⟩, fun h => ⟨h.components, h.definitions⟩⟩

def RefersOnly (t : Tree) : Prop :=
  ∀ r, reference? t = some (.str r) → Portable r

theorem refersOnly_iff {t : Tree} :
    RefersOnly t ↔ ∀ v ∈ reference? t, ∀ r ∈ v.str?, Portable r := by
  refine ⟨fun h v hv r hr => ?_, fun h r hr => h _ hr r rfl⟩
  cases v with
  | str s =>
    cases hr
    exact h _ hv
  | _ => cases hr

instance : DecidablePred RefersOnly := fun _ =>
  decidable_of_iff _ refersOnly_iff.symm

/-- A value that can move: its reference means the same in both descriptions, and the names that
it requires stay the same, for a name may be spelled by any value. -/
structure Movable (t : Tree) : Prop where
  reference : RefersOnly t
  required : ∀ item ∈ (t.get "required").items, item.relinked moved = item

section References
variable {r s : Text}

theorem moved_append (rest : Text) :
    moved (Text.ofString "#/definitions/" ++ rest) =
      Text.ofString "#/components/schemas/" ++ rest := by
  rw [moved, List.dropPrefix?_append_of_beq _ (beq_self_eq_true _)]

theorem moved_cases (r : Text) :
    (∃ rest, r = Text.ofString "#/definitions/" ++ rest) ∨
      (¬ Text.ofString "#/definitions/" <+: r ∧ moved r = r) := by
  cases h : r.dropPrefix? (Text.ofString "#/definitions/") with
  | some rest =>
    obtain ⟨p, hp, he⟩ := List.dropPrefix?_eq_some_iff.mp h
    obtain rfl := eq_of_beq he
    exact .inl ⟨rest, hp⟩
  | none =>
    refine .inr ⟨?_, by rw [moved, h]⟩
    rintro ⟨rest, rfl⟩
    rw [List.dropPrefix?_append_of_beq _ (beq_self_eq_true _)] at h
    cases h

theorem components_prefix (rest : Text) :
    Text.ofString "#/components" <+: Text.ofString "#/components/schemas/" ++ rest :=
  List.IsPrefix.trans ⟨"/schemas/", rfl⟩ (List.prefix_append _ _)

theorem moved_injective (hr : Portable r) (hs : Portable s) (h : moved r = moved s) : r = s := by
  rcases moved_cases r with ⟨rest, rfl⟩ | ⟨-, hr'⟩
  · rcases moved_cases s with ⟨rest', rfl⟩ | ⟨-, hs'⟩
    · rw [moved_append, moved_append] at h
      rw [List.append_cancel_left h]
    · rw [moved_append, hs'] at h
      exact absurd (h ▸ components_prefix rest) hs.components
  · rcases moved_cases s with ⟨rest', rfl⟩ | ⟨-, hs'⟩
    · rw [moved_append, hr'] at h
      exact absurd (h ▸ components_prefix rest') hr.components
    · rw [← hr', ← hs', h]

theorem pointer?_definitions (rest : Text) :
    pointer? (Text.ofString "#/definitions/" ++ rest) =
      some (Text.ofString "definitions" :: keysOf rest) := by
  have hkeys : keysOf (Text.ofString "definitions" ++ .char '/' :: rest) =
      Text.ofString "definitions" :: keysOf rest := keysOf_append rest (by decide)
  rw [← hkeys]
  rfl

theorem pointer?_components (rest : Text) :
    pointer? (Text.ofString "#/components/schemas/" ++ rest) =
      some (Text.ofString "components" :: Text.ofString "schemas" :: keysOf rest) := by
  have hinner : keysOf (Text.ofString "schemas" ++ .char '/' :: rest) =
      Text.ofString "schemas" :: keysOf rest := keysOf_append rest (by decide)
  have houter : keysOf (Text.ofString "components" ++ .char '/' ::
      (Text.ofString "schemas" ++ .char '/' :: rest)) =
        Text.ofString "components" :: keysOf (Text.ofString "schemas" ++ .char '/' :: rest) :=
    keysOf_append _ (by decide)
  rw [← hinner, ← houter]
  rfl

/-- An entity keeps its name. -/
theorem referenceName_moved (r : Text) : referenceName (moved r) = referenceName r := by
  rcases moved_cases r with ⟨rest, rfl⟩ | ⟨-, h⟩
  · obtain ⟨path, name, hkeys⟩ :=
      (List.eq_nil_or_concat (keysOf rest)).resolve_left (keysOf_ne_nil rest)
    have hfrom : pointer? (Text.ofString "#/definitions/" ++ rest) =
        some ((Text.ofString "definitions" :: path) ++ [name]) := by
      rw [pointer?_definitions, hkeys, List.concat_eq_append, List.cons_append]
    have hto : pointer? (Text.ofString "#/components/schemas/" ++ rest) =
        some ((Text.ofString "components" :: Text.ofString "schemas" :: path) ++ [name]) := by
      rw [pointer?_components, hkeys, List.concat_eq_append, List.cons_append, List.cons_append]
    rw [moved_append, referenceName_eq hfrom, referenceName_eq hto]
  · rw [h]

end References

section Values
variable {t u v : Tree} {name : Text} {path : List Text}

/-- A value and what it is in the other description. -/
def MovedTo (t u : Tree) : Prop :=
  Throughout Movable t ∧ u = t.relinked moved

/-- What keys lead to may also be a reference itself, which is a text on both sides. -/
def Meets (t u : Tree) : Prop :=
  MovedTo t u ∨ ∃ r s, t = .str r ∧ u = .str s

theorem movable_null : Movable .null := by
  refine ⟨?_, ?_⟩
  · intro r h
    cases h
  · intro item h
    cases h

theorem movedTo_null : MovedTo .null .null :=
  ⟨throughout_null movable_null, rfl⟩

theorem meets_text (r s : Text) : Meets (.str r) (.str s) :=
  .inr ⟨r, s, rfl, rfl⟩

theorem MovedTo.meets (h : MovedTo t u) : Meets t u :=
  .inl h

theorem MovedTo.within (h : MovedTo t u) (hv : Within v t) : MovedTo v (v.relinked moved) :=
  ⟨h.1.within hv, rfl⟩

theorem MovedTo.get? (h : MovedTo t u) (hn : name ≠ "$ref") :
    Option.Rel MovedTo (t.get? name) (u.get? name) := by
  obtain ⟨ht, rfl⟩ := h
  rw [get?_relinked_of_ne t hn]
  cases hv : t.get? name with
  | none => exact .none
  | some v => exact .some ⟨ht.get? hv, rfl⟩

/-- What is redirected is a text, and nothing else is. -/
theorem MovedTo.redirect (key : Tree) (h : MovedTo t u) : Meets t (redirect moved key u) := by
  by_cases htext : ∃ r, t = .str r
  · obtain ⟨r, rfl⟩ := htext
    obtain ⟨-, rfl⟩ := h
    cases key <;> exact meets_text _ _
  · have hu : ∀ r, u ≠ .str r := by
      obtain ⟨-, rfl⟩ := h
      rintro r he
      cases t <;> cases he
      exact htext ⟨_, rfl⟩
    rw [redirect_of_not_text hu]
    exact h.meets

theorem Meets.get? (h : Meets t u) (name : Text) :
    Option.Rel Meets (t.get? name) (u.get? name) := by
  rcases h with ⟨ht, rfl⟩ | ⟨r, s, rfl, rfl⟩
  · rw [get?_relinked]
    cases hv : t.get? name with
    | none => exact .none
    | some v => exact .some (MovedTo.redirect _ ⟨ht.get? hv, rfl⟩)
  · exact .none

theorem Meets.descend (h : Meets t u) (path : List Text) :
    Option.Rel Meets (descend t path) (descend u path) := by
  induction path generalizing t u with
  | nil => exact .some h
  | cons key rest ih =>
    rw [Document.descend, Document.descend]
    rcases option_rel_iff.mp (h.get? key) with ⟨ht, hu⟩ | ⟨v, w, ht, hu, hvw⟩
    · rw [ht, hu]
      exact .none
    · rw [ht, hu]
      exact ih hvw

theorem MovedTo.entries (h : MovedTo t u) :
    Option.Rel (List.Forall₂ fun e e' => e.1 = e'.1 ∧ Meets e.2 e'.2) t.map? u.map? := by
  obtain ⟨ht, rfl⟩ := h
  rw [map?_relinked]
  cases hm : t.map? with
  | none => exact .none
  | some entries =>
    refine .some ?_
    rw [entriesRelinked_eq_map, List.forall₂_map_right_iff, List.forall₂_same]
    rintro ⟨key, v⟩ he
    exact ⟨rfl, MovedTo.redirect _ ⟨ht.value hm he, rfl⟩⟩

theorem MovedTo.list (h : MovedTo t u) :
    Option.Rel (List.Forall₂ MovedTo) t.list? u.list? := by
  obtain ⟨ht, rfl⟩ := h
  rw [list?_relinked]
  cases hl : t.list? with
  | none => exact .none
  | some items =>
    refine .some ?_
    rw [itemsRelinked_eq_map, List.forall₂_map_right_iff, List.forall₂_same]
    intro item hi
    have hitem : item ∈ t.items := by rwa [Tree.items, hl]
    exact ⟨ht.item hitem, rfl⟩

end Values

section Lookup
variable {entities paths : Tree} {r : Text}

/-- Elsewhere the two descriptions are alike. -/
theorem meets_elsewhere (hpaths : Throughout Movable paths) {key : Text} (rest : List Text)
    (hd : Text.ofString "definitions" ≠ key) (hc : Text.ofString "components" ≠ key) :
    Option.Rel Meets (descend (swagger entities paths) (key :: rest))
      (descend (openapi entities paths) (key :: rest)) := by
  have hnone : Option.Rel Meets none none := .none
  rw [descend, descend, swagger, openapi, get?_cons, get?_cons, get?_cons, get?_cons, if_neg hd,
    if_neg hc]
  by_cases hp : Text.ofString "paths" = key
  · have hmeets : Meets paths (paths.relinked moved) := .inl ⟨hpaths, rfl⟩
    rw [if_pos hp, if_pos hp]
    exact hmeets.descend rest
  · rw [if_neg hp, if_neg hp]
    exact hnone

theorem meets_lookup (hentities : Throughout Movable entities) (hpaths : Throughout Movable paths)
    (hr : Portable r) :
    Option.Rel Meets (lookup ⟨swagger entities paths⟩ r)
      (lookup ⟨openapi entities paths⟩ (moved r)) := by
  rw [lookup_eq_bind, lookup_eq_bind]
  rcases moved_cases r with ⟨rest, rfl⟩ | ⟨hdefinitions, hmoved⟩
  · rw [moved_append, pointer?_definitions, pointer?_components]
    have hmeets : Meets entities (entities.relinked moved) := .inl ⟨hentities, rfl⟩
    exact hmeets.descend (keysOf rest)
  · rw [hmoved]
    cases hkeys : pointer? r with
    | none => exact .none
    | some keys =>
      obtain ⟨path, rfl, rfl⟩ := pointer?_eq_some hkeys
      cases hk : keysOf path with
      | nil => exact absurd hk (keysOf_ne_nil path)
      | cons key rest =>
        apply meets_elsewhere hpaths
        · rintro rfl
          rcases eq_or_append_of_keysOf hk (by decide) (by decide) with rfl | ⟨more, rfl⟩
          · exact hr.definitions rfl
          · exact hdefinitions ⟨more, rfl⟩
        · rintro rfl
          rcases eq_or_append_of_keysOf hk (by decide) (by decide) with rfl | ⟨more, rfl⟩
          · exact hr.components ⟨[], rfl⟩
          · exact hr.components ⟨.char '/' :: more, rfl⟩

end Lookup

section Readings
variable {entities paths : Tree}

theorem meets_required {t u : Tree} (h : Meets t u) :
    (u.get "required").items.mapM nameOf = (t.get "required").items.mapM nameOf := by
  rcases h with ⟨ht, rfl⟩ | ⟨r, s, rfl, rfl⟩
  · have hsame : (t.get "required").items.map (relinked moved) = (t.get "required").items := by
      conv => rhs; rw [← List.map_id (t.get "required").items]
      exact List.map_congr_left ht.here.required
    rw [get_relinked t (by decide), items_relinked, hsame]
  · rfl

/-- A description is read alike when its entities move. -/
def relocation (hentities : Throughout Movable entities) (hpaths : Throughout Movable paths) :
    Correspondence ⟨swagger entities paths⟩ ⟨openapi entities paths⟩ where
  rename := moved
  known := Portable
  node := Meets
  value := MovedTo
  rename_injective := moved_injective
  referenceName_rename := fun _ => referenceName_moved _
  lookup := meets_lookup hentities hpaths
  node_isNull := by
    rintro t u (⟨-, rfl⟩ | ⟨r, s, rfl, rfl⟩)
    · exact isNull_relinked
    · rfl
  node_isObject := by
    rintro t u (⟨-, rfl⟩ | ⟨r, s, rfl, rfl⟩)
    · rw [map?_relinked, Option.isSome_map]
    · rfl
  node_label := by
    rintro t u (⟨ht, rfl⟩ | ⟨r, s, rfl, rfl⟩)
    · rw [label?_relinked]
      cases hl : label? t with
      | none => exact .none
      | some a =>
        have hlabel : Within a.2 t := label?_eq_some hl ▸ .label (.self a.2)
        exact .some ⟨rfl, .inl ⟨ht.within hlabel, rfl⟩⟩
    · exact .none
  node_reference := by
    rintro t u (⟨-, rfl⟩ | ⟨r, s, rfl, rfl⟩) hr
    · rw [reference?_relinked, hr]
      rfl
    · rfl
  node_reference_text := by
    rintro t u q (⟨ht, rfl⟩ | ⟨r, s, rfl, rfl⟩) hr
    · exact ⟨ht.here.reference q hr, reference?_relinked_text hr⟩
    · cases hr
  node_reference_other := by
    rintro t u v (⟨-, rfl⟩ | ⟨r, s, rfl, rfl⟩) hr hv
    · have hw : ∀ r, v.relinked moved ≠ .str r := relinked_ne_text hv
      refine ⟨v.relinked moved, ?_, hw⟩
      rw [reference?_relinked, hr, Option.map_some, redirect_of_not_text hw]
    · cases hr
  node_field := by
    rintro t u name (ht | ⟨r, s, rfl, rfl⟩) hn
    · exact ht.get? (List.ne_of_not_mem_cons hn)
    · exact .none
  node_required := meets_required
  value_null := movedTo_null
  value_node := MovedTo.meets
  value_text := by
    rintro t u ⟨-, rfl⟩
    exact str?_relinked
  value_isTruthy := by
    rintro t u ⟨-, rfl⟩
    exact isTruthy_relinked
  value_list := MovedTo.list
  value_entries := MovedTo.entries

theorem entitySchemas_swagger (entities paths : Tree) :
    entitySchemas ⟨swagger entities paths⟩ = entities.map?.getD [] :=
  rfl

theorem entitySchemas_openapi (entities paths : Tree) :
    entitySchemas ⟨openapi entities paths⟩ = (entities.relinked moved).map?.getD [] := by
  have hschemas : ((openapi entities paths).get "components").get "schemas" =
      entities.relinked moved := rfl
  unfold entitySchemas
  rw [hschemas]
  dsimp only
  split
  · rename_i hnull
    rw [hnull]
    rfl
  · rfl

theorem result_spec_moved (policy : Name.Policy) (hentities : Throughout Movable entities)
    (hpaths : Throughout Movable paths) :
    (spec policy (openapi entities paths)).result =
      (spec policy (swagger entities paths)).result.mapError (Fault.renamed moved) := by
  have hentries : Option.Rel (relocation hentities hpaths).Entries entities.map?
      (entities.relinked moved).map? := MovedTo.entries ⟨hentities, rfl⟩
  have hschemas : (relocation hentities hpaths).Entries (entitySchemas ⟨swagger entities paths⟩)
      (entitySchemas ⟨openapi entities paths⟩) := by
    rw [entitySchemas_swagger, entitySchemas_openapi]
    rcases option_rel_iff.mp hentries with ⟨ht, hu⟩ | ⟨es, es', ht, hu, hes⟩
    · rw [ht, hu]
      exact .nil
    · rw [ht, hu]
      exact hes
  have hitems : Option.Rel (relocation hentities hpaths).Entries
      (pathItems ⟨swagger entities paths⟩) (pathItems ⟨openapi entities paths⟩) := by
    have hfrom : (swagger entities paths).get "paths" = paths := rfl
    have hto : (openapi entities paths).get "paths" = paths.relinked moved := rfl
    unfold pathItems
    rw [hfrom, hto, isTruthy_relinked]
    split
    · exact MovedTo.entries ⟨hpaths, rfl⟩
    · exact .some .nil
  have hreading := agree_eq_iff.mp ((relocation hentities hpaths).agree_reading policy hschemas hitems)
  rw [result_spec, result_spec]
  exact hreading

/-- Moving the entities of a description, with the references to them, changes neither what is
read nor why it is refused, except that a cycle is told by the references that are there now. Both
descriptions are given up for their contents alone if the first one is legible. -/
theorem result_spec_openapi (policy : Name.Policy) (hentities : Throughout Movable entities)
    (hpaths : Throughout Movable paths) :
    (spec policy (openapi entities paths)).result =
        (spec policy (swagger entities paths)).result.mapError (Fault.renamed moved) ∧
      (Throughout Legible (swagger entities paths) →
        ∀ e, (spec policy (swagger entities paths)).result = .error e ∨
          (spec policy (openapi entities paths)).result = .error e → e.isRejection = true) := by
  have hmoved := result_spec_moved policy hentities hpaths
  refine ⟨hmoved, fun hlegible e he => ?_⟩
  have hfails := failsBy_spec_of_legible policy hlegible
  rcases he with he | he
  · exact hfails e he
  · rw [hmoved] at he
    cases hspec : (spec policy (swagger entities paths)).result with
    | ok s =>
      rw [hspec] at he
      cases he
    | error f =>
      rw [hspec] at he
      cases he
      rw [isRejection_renamed]
      exact hfails f hspec

end Readings

section Examples

/-- A value that requires nothing but texts moves where its reference does. -/
theorem movable_of_texts {t : Tree} (h : RefersOnly t)
    (hr : ∀ item ∈ (t.get "required").items, item.str?.isSome = true) : Movable t := by
  refine ⟨h, ?_⟩
  intro item hi
  have htext := hr item hi
  cases item with
  | str s => rfl
  | _ => cases htext

theorem throughout_movable {t : Tree} (h : Throughout RefersOnly t)
    (hr : Throughout (fun s => ∀ item ∈ (s.get "required").items, item.str?.isSome = true) t) :
    Throughout Movable t :=
  fun s hs => movable_of_texts (h s hs) (hr s hs)

theorem movable_kennelEntities : Throughout Movable (.map kennelEntities) :=
  throughout_movable (by decide +kernel) (by decide +kernel)

theorem movable_kennelPaths : Throughout Movable (.map kennelPaths) :=
  throughout_movable (by decide +kernel) (by decide +kernel)

/-- One entity, which refers to itself. -/
def circular : Tree :=
  .map [selfReferringEntity]

theorem result_spec_circular :
    (spec .standard (swagger circular (.map []))).result =
      .error (.referenceCycle ["#/definitions/B", "#/definitions/B"]) := by
  have hobject : ¬ (swagger circular (.map [])).map?.isNone = true := Bool.false_ne_true
  have hlookup : lookup ⟨swagger circular (.map [])⟩ "#/definitions/B" = some selfReferring := rfl
  have hentities : entitySchemas ⟨swagger circular (.map [])⟩ = [selfReferringEntity] := rfl
  rw [result_spec, if_neg hobject, reading, hentities, List.mapM_cons,
    entityTable_selfReferring .standard hlookup]
  rfl

/-- The kennel is read alike in both forms, and the circular description is refused in both. -/
theorem result_spec_openapi_kennel :
    (Throughout Movable (.map kennelEntities) ∧ Throughout Movable (.map kennelPaths) ∧
      ∃ s, GetsPets s.functions ∧
        (spec .standard (swagger (.map kennelEntities) (.map kennelPaths))).result = .ok s ∧
        (spec .standard (openapi (.map kennelEntities) (.map kennelPaths))).result = .ok s) ∧
    Throughout Movable circular ∧ Throughout Movable (.map []) ∧
      Throughout Legible (swagger circular (.map [])) ∧
      ∃ e, (spec .standard (openapi circular (.map []))).result = .error e ∧
        e.isRejection = true := by
  constructor
  · obtain ⟨fs, hgets, hs⟩ := spec_kennel
    have hswagger : (spec .standard (swagger (.map kennelEntities) (.map kennelPaths))).result =
        .ok ⟨kennelTables, fs⟩ := hs
    have hmoved := (result_spec_openapi .standard movable_kennelEntities movable_kennelPaths).1
    rw [hswagger] at hmoved
    exact ⟨movable_kennelEntities, movable_kennelPaths, _, hgets, hswagger, hmoved⟩
  · have hentities : Throughout Movable circular :=
      throughout_movable (by decide +kernel) (by decide +kernel)
    have hpaths : Throughout Movable (.map []) :=
      throughout_movable (by decide +kernel) (by decide +kernel)
    have hlegible : Throughout Legible (swagger circular (.map [])) := by
      decide +kernel
    obtain ⟨hmoved, hrejection⟩ := result_spec_openapi .standard hentities hpaths
    rw [result_spec_circular] at hmoved
    exact ⟨hentities, hpaths, hlegible, _, hmoved, hrejection hlegible _ (.inr hmoved)⟩

end Examples

section Spelled
variable {name reference required : Text}

/-- Both descriptions have one specification, or both are refused. -/
def SameOutcome (x y : Except Fault Spec) : Prop :=
  (∃ s, x = .ok s ∧ y = .ok s) ∨
    ((∃ e, x = .error e ∧ e.isRejection) ∧ ∃ e, y = .error e ∧ e.isRejection)

/-- An entity with one property, and what it requires is spelled by a reference. -/
def spelled (name reference : Text) : Tree :=
  .map [(.str "properties", .map [(.str name, .map [])]),
    (.str "required", .list [.map [(.str "$ref", .str reference)]])]

def spelledTable (policy : Name.Policy) (name required : Text) : Table :=
  ⟨"A", [⟨name, .unknown, name ∉ [required], policy.isPrimaryKey name⟩]⟩

theorem reading_spelled {d : Document} {policy : Name.Policy}
    (hentities : d.entitySchemas = [(.str "A", spelled name reference)])
    (hpaths : d.pathItems = some [])
    (hrequired : nameOf (.map [(.str "$ref", .str reference)]) = .ok required) :
    d.reading policy = .ok ⟨[spelledTable policy name required], []⟩ := by
  have hown : Members.own (spelled name reference) = .ok ⟨[(name, .map [])], [required]⟩ := by
    have hitems : ((spelled name reference).get "required").items =
        [.map [(.str "$ref", .str reference)]] := rfl
    have hnamed : named (((spelled name reference).get "properties").map?.getD []) =
        .ok [(name, .map [])] := rfl
    rw [Members.own, hnamed, hitems, List.mapM_cons, hrequired]
    rfl
  have hmembers : (d.members (spelled name reference)).result =
      .ok ⟨[(name, .map [])], [required]⟩ := by
    rw [result_members_of_single rfl rfl rfl, withOwn, hown]
    rfl
  have hcolumns : columns policy ⟨[(name, .map [])], [required]⟩ =
      .ok [⟨name, .unknown, name ∉ [required], policy.isPrimaryKey name⟩] := by
    rw [columns, List.mapM_cons, column, dataType_empty]
    rfl
  have htable : d.entityTable policy (.str "A", spelled name reference) =
      .ok (spelledTable policy name required) :=
    entityTable_of_members hmembers hcolumns
  have haccepted : accepted ⟨[spelledTable policy name required], []⟩ =
      .ok ⟨[spelledTable policy name required], []⟩ := by
    rfl
  rw [reading, hentities, List.mapM_cons, htable, hpaths]
  exact haccepted

/-- The name that the reference to an entity spells, and the one that it spells when moved. -/
def swaggerSpelling : Text :=
  "\x7b'$ref': '#/definitions/X'\x7d"

def openapiSpelling : Text :=
  "\x7b'$ref': '#/components/schemas/X'\x7d"

def spelledEntities : Tree :=
  .map [(.str "A", spelled swaggerSpelling "#/definitions/X")]

/-- The name that a moved reference spells is another one, so the property is not required. -/
theorem not_sameOutcome_spelledEntities :
    Throughout RefersOnly spelledEntities ∧ Throughout RefersOnly (.map []) ∧
      ¬ SameOutcome (spec .standard (swagger spelledEntities (.map []))).result
        (spec .standard (openapi spelledEntities (.map []))).result := by
  have hswagger : (spec .standard (swagger spelledEntities (.map []))).result =
      .ok ⟨[spelledTable .standard swaggerSpelling swaggerSpelling], []⟩ := by
    rw [result_spec]
    have hname : nameOf (.map [(.str "$ref", .str "#/definitions/X")]) = .ok swaggerSpelling := by
      decide +kernel
    exact reading_spelled rfl rfl hname
  have hopenapi : (spec .standard (openapi spelledEntities (.map []))).result =
      .ok ⟨[spelledTable .standard swaggerSpelling openapiSpelling], []⟩ := by
    rw [result_spec]
    have hname : nameOf (.map [(.str "$ref", .str "#/components/schemas/X")]) =
        .ok openapiSpelling := by
      decide +kernel
    exact reading_spelled rfl rfl hname
  refine ⟨by decide +kernel, by decide +kernel, ?_⟩
  rw [hswagger, hopenapi]
  rintro (⟨s, hs, hs'⟩ | ⟨⟨e, he, -⟩, -⟩)
  · have hsame := Except.ok.inj (hs.trans hs'.symm)
    have hnullable := congrArg (fun s => s.tables.map fun t => t.columns.map (·.nullable)) hsame
    exact absurd hnullable (by decide +kernel)
  · cases he

end Spelled

end ApiScaffold.Document
