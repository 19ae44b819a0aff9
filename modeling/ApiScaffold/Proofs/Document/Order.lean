import ApiScaffold.Proofs.Document.Correspondence.Tables
import ApiScaffold.Proofs.Tree.Order

namespace ApiScaffold.Document
open ApiScaffold.Tree

section Nodes
variable {t u : Tree} {name key : Text} {path keys : List Text}

/-- Two maps that agree under every key but the one under which components keep entities. -/
structure Alike (t u : Tree) : Prop where
  left : ∃ entries, t = .map entries
  right : ∃ entries, u = .map entries
  get? : ∀ name : Text, name ≠ "schemas" → t.get? name = u.get? name

/-- Nodes that are read alike. -/
def Same (t u : Tree) : Prop :=
  t = u ∨ Alike t u

theorem same_refl (t : Tree) : Same t t :=
  .inl rfl

theorem rel_same_refl (o : Option Tree) : Option.Rel Same o o := by
  cases o with
  | none => exact .none
  | some t => exact .some (same_refl t)

theorem Same.get?_eq (h : Same t u) (hn : name ≠ "schemas") : t.get? name = u.get? name := by
  rcases h with rfl | h
  · rfl
  · exact h.get? name hn

theorem Same.get_eq (h : Same t u) (hn : name ≠ "schemas") : t.get name = u.get name := by
  rw [Tree.get, Tree.get, h.get?_eq hn]

theorem alike_of_reordered (h : Reordered t u) : Alike t u := by
  refine ⟨?_, ?_, fun name _ => h.get?_eq name⟩
  · cases h with
    | map => exact ⟨_, rfl⟩
  · cases h with
    | map => exact ⟨_, rfl⟩

/-- Below the first key of the path only `schemas` are gone through. -/
theorem same_of_at (hpath : ∀ key ∈ path, key = "schemas") (h : At Reordered path t u) :
    Same t u := by
  cases path with
  | nil => exact .inr (alike_of_reordered h)
  | cons key path =>
    obtain rfl := hpath key List.mem_cons_self
    rcases h with he | ⟨entries, entries', ht, hu, hentries⟩
    · exact .inl he
    · refine .inr ⟨⟨entries, ht⟩, ⟨entries', hu⟩, fun name hn => ?_⟩
      have hat : At Reordered ("schemas" :: path) t u := .inr ⟨entries, entries', ht, hu, hentries⟩
      exact hat.get?_of_ne hn.symm

theorem descend_cons_congr (h : t.get? key = u.get? key) (keys : List Text) :
    descend t (key :: keys) = descend u (key :: keys) := by
  rw [descend, descend, h]

theorem same_descend_cons {k : Text} (h : At Reordered (k :: path) t u)
    (hbelow : ∀ v w, At Reordered path v w → ∀ keys,
      Option.Rel Same (descend v keys) (descend w keys)) (key : Text) (keys : List Text) :
    Option.Rel Same (descend t (key :: keys)) (descend u (key :: keys)) := by
  by_cases hk : k = key
  · subst hk
    rw [descend, descend]
    rcases option_rel_iff.mp h.get? with ⟨ht, hu⟩ | ⟨v, w, ht, hu, hvw⟩
    · rw [ht, hu]
      exact .none
    · rw [ht, hu]
      rcases hvw with rfl | hat
      · exact rel_same_refl _
      · exact hbelow v w hat keys
  · rw [descend_cons_congr (h.get?_of_ne hk)]
    exact rel_same_refl _

/-- A reordered map is gone through like the original one. -/
theorem same_descend (hpath : ∀ key ∈ path, key = "schemas") (h : At Reordered path t u)
    (keys : List Text) : Option.Rel Same (descend t keys) (descend u keys) := by
  induction path generalizing t u keys with
  | nil =>
    cases keys with
    | nil => exact .some (same_of_at hpath h)
    | cons key keys =>
      rw [descend_cons_congr (h.get?_eq key)]
      exact rel_same_refl _
  | cons k path ih =>
    cases keys with
    | nil => exact .some (same_of_at hpath h)
    | cons key keys =>
      apply same_descend_cons h
      intro v w hvw keys
      exact ih (fun key hk => hpath key (List.mem_cons_of_mem _ hk)) hvw keys

end Nodes

section Reordering
variable {d d' : Document} {key : Text} {path : List Text} {policy : Name.Policy}

theorem same_lookup (hpath : ∀ k ∈ path, k = "schemas")
    (h : At Reordered (key :: path) d.root d'.root) (r : Text) :
    Option.Rel Same (d.lookup r) (d'.lookup r) := by
  rw [lookup_eq_bind, lookup_eq_bind]
  cases hkeys : pointer? r with
  | none => exact .none
  | some keys =>
    obtain ⟨rest, -, rfl⟩ := pointer?_eq_some hkeys
    cases hk : keysOf rest with
    | nil => exact absurd hk (keysOf_ne_nil rest)
    | cons k keys =>
      apply same_descend_cons h
      intro v w hvw keys
      exact same_descend hpath hvw keys

/-- A document is read alike when a map at such a path is reordered. -/
def reordering (hpath : ∀ k ∈ path, k = "schemas")
    (h : At Reordered (key :: path) d.root d'.root) : Correspondence d d' where
  rename := id
  known := fun _ => True
  node := Same
  value := Eq
  rename_injective := fun _ _ he => he
  referenceName_rename := fun _ => rfl
  lookup := fun _ => same_lookup hpath h _
  node_isNull := by
    rintro t u (rfl | ⟨⟨es, rfl⟩, ⟨es', rfl⟩, -⟩)
    · rfl
    · rfl
  node_isObject := by
    rintro t u (rfl | ⟨⟨es, rfl⟩, ⟨es', rfl⟩, -⟩)
    · rfl
    · rfl
  node_label := by
    rintro t u (rfl | ⟨⟨es, rfl⟩, ⟨es', rfl⟩, -⟩)
    · cases label? t with
      | none => exact .none
      | some a => exact .some ⟨rfl, same_refl _⟩
    · exact .none
  node_reference := fun ht hr => (ht.get?_eq (by decide)).symm.trans hr
  node_reference_text := fun ht hr => ⟨trivial, (ht.get?_eq (by decide)).symm.trans hr⟩
  node_reference_other := fun ht hr hv => ⟨_, (ht.get?_eq (by decide)).symm.trans hr, hv⟩
  node_field := by
    intro t u name ht hn
    have hname : name ≠ "schemas" := by
      rintro rfl
      exact hn (by decide)
    rw [ht.get?_eq hname]
    cases u.get? name with
    | none => exact .none
    | some v => exact .some rfl
  node_required := fun ht => by rw [ht.get_eq (by decide)]
  value_null := rfl
  value_node := .inl
  value_text := fun he => by rw [he]
  value_isTruthy := fun he => by rw [he]
  value_list := by
    rintro t _ rfl
    cases t.list? with
    | none => exact .none
    | some items => exact .some (List.forall₂_same.mpr fun _ _ => rfl)
  value_entries := by
    rintro t _ rfl
    cases t.map? with
    | none => exact .none
    | some entries => exact .some (List.forall₂_same.mpr fun _ _ => ⟨rfl, same_refl _⟩)

theorem eq_of_agree {α : Type} {x y : Except Fault α} (h : Agree id Eq x y) : y = x := by
  cases h with
  | ok h => rw [h]
  | error e => cases e <;> simp [Fault.renamed]

theorem entityTable_reordered (hpath : ∀ k ∈ path, k = "schemas")
    (h : At Reordered (key :: path) d.root d'.root) :
    d'.entityTable policy = d.entityTable policy := by
  funext e
  exact eq_of_agree ((reordering hpath h).agree_entityTable policy rfl (same_refl e.2))

theorem pathEndpoints_reordered (hpath : ∀ k ∈ path, k = "schemas")
    (h : At Reordered (key :: path) d.root d'.root) : d'.pathEndpoints = d.pathEndpoints := by
  funext e
  exact eq_of_agree ((reordering hpath h).agree_pathEndpoints rfl (same_refl e.2))

end Reordering

section Entries
variable {t u : Tree} {root root' : Tree}

/-- The same document, where the paths and the entities may stand in other orders. -/
def Rearranged (root root' : Tree) : Prop :=
  ∃ mid, At Reordered ["paths"] root mid ∧ At Reordered (entityPath ⟨root⟩) mid root'

theorem entities_of_paths_reordered (h : At Reordered ["paths"] root root') :
    entitySchemas ⟨root'⟩ = entitySchemas ⟨root⟩ := by
  have hcomponents : root.get "components" = root'.get "components" := h.get_of_ne (by decide)
  have hdefinitions : root.get "definitions" = root'.get "definitions" := h.get_of_ne (by decide)
  unfold entitySchemas
  dsimp only
  rw [hcomponents, hdefinitions]

/-- Whether there are schemas among the components decides where the entities are. -/
theorem perm_entitySchemas (h : At Reordered (entityPath ⟨root⟩) root root') :
    (entitySchemas ⟨root⟩).Perm (entitySchemas ⟨root'⟩) := by
  rcases entityPath_eq ⟨root⟩ with ⟨hnull, hpath, hentities⟩ | ⟨hnull, hpath, hentities⟩
  · rw [hpath] at h
    have hcomponents : root.get "components" = root'.get "components" :=
      h.get_of_ne (by decide)
    have hnull' : (root'.get "components").get "schemas" = .null := hcomponents ▸ hnull
    rcases entityPath_eq ⟨root'⟩ with ⟨-, -, hentities'⟩ | ⟨hne, -, -⟩
    · rw [hentities, hentities']
      exact perm_entries h.get
    · exact absurd hnull' hne
  · rw [hpath] at h
    have hschemas : (root.get "components").get "schemas" =
          (root'.get "components").get "schemas" ∨
        Reordered ((root.get "components").get "schemas")
          ((root'.get "components").get "schemas") := by
      rcases h.get with hsame | hat
      · exact .inl (congrArg (·.get "schemas") hsame)
      · exact hat.get
    have hnull' : (root'.get "components").get "schemas" ≠ .null := by
      rcases hschemas with hsame | hreordered
      · exact hsame ▸ hnull
      · exact hreordered.ne_null
    rcases entityPath_eq ⟨root'⟩ with ⟨he, -, -⟩ | ⟨-, -, hentities'⟩
    · exact absurd he hnull'
    · rw [hentities, hentities']
      exact perm_entries hschemas

theorem perm_pathItems (h : At Reordered ["paths"] root root') :
    Option.Rel List.Perm (pathItems ⟨root⟩) (pathItems ⟨root'⟩) := by
  have hrefl (o : Option Tree.Entries) : Option.Rel List.Perm o o := by
    cases o with
    | none => exact .none
    | some entries => exact .some (.refl entries)
  unfold pathItems
  rcases h.get with hsame | hreordered
  · rw [hsame]
    exact hrefl _
  · dsimp only
    rw [hreordered.isTruthy_eq]
    split
    · obtain ⟨entries, entries', ht, hu, hperm⟩ := hreordered.perm
      rw [ht, hu]
      exact .some hperm
    · exact hrefl _

theorem entityPath_of_paths_reordered (h : At Reordered ["paths"] root root') :
    entityPath ⟨root'⟩ = entityPath ⟨root⟩ := by
  have hcomponents : root.get "components" = root'.get "components" := h.get_of_ne (by decide)
  unfold entityPath
  dsimp only
  rw [hcomponents]

theorem entityPath_cons (d : Document) :
    ∃ key path, d.entityPath = key :: path ∧ key ≠ "paths" ∧ ∀ k ∈ path, k = "schemas" := by
  rcases d.entityPath_eq with ⟨-, hpath, -⟩ | ⟨-, hpath, -⟩
  · exact ⟨_, _, hpath, by decide, by simp⟩
  · exact ⟨_, _, hpath, by decide, by simp⟩

/-- Two documents that are read from the same entities and paths, in other orders. -/
structure SameParts (policy : Name.Policy) (d d' : Document) : Prop where
  entities : d.entitySchemas.Perm d'.entitySchemas
  paths : Option.Rel List.Perm d.pathItems d'.pathItems
  entityTable : d'.entityTable policy = d.entityTable policy
  pathEndpoints : d'.pathEndpoints = d.pathEndpoints

/-- First the paths are reordered, which leaves the entities alone, and then the entities, which
leaves the paths alone. -/
theorem Rearranged.sameParts (h : Rearranged root root') (policy : Name.Policy) :
    SameParts policy ⟨root⟩ ⟨root'⟩ := by
  obtain ⟨mid, hpaths, hentities⟩ := h
  rw [← entityPath_of_paths_reordered hpaths] at hentities
  have hperm := perm_entitySchemas hentities
  obtain ⟨key, path, hpath, hne, hschemas⟩ := entityPath_cons ⟨mid⟩
  rw [hpath] at hentities
  have hitems : pathItems ⟨root'⟩ = pathItems ⟨mid⟩ := by
    have hget : mid.get "paths" = root'.get "paths" := hentities.get_of_ne hne
    unfold pathItems
    dsimp only
    rw [hget]
  have htable : entityTable policy ⟨mid⟩ = entityTable policy ⟨root⟩ :=
    entityTable_reordered (by simp) hpaths
  have htable' : entityTable policy ⟨root'⟩ = entityTable policy ⟨mid⟩ :=
    entityTable_reordered hschemas hentities
  have hendpoints : pathEndpoints ⟨mid⟩ = pathEndpoints ⟨root⟩ :=
    pathEndpoints_reordered (by simp) hpaths
  have hendpoints' : pathEndpoints ⟨root'⟩ = pathEndpoints ⟨mid⟩ :=
    pathEndpoints_reordered hschemas hentities
  exact ⟨entities_of_paths_reordered hpaths ▸ hperm, hitems ▸ perm_pathItems hpaths,
    htable'.trans htable, hendpoints'.trans hendpoints⟩

end Entries

end ApiScaffold.Document
