import ApiScaffold.Proofs.Assoc.Keys
import ApiScaffold.Proofs.Document.Acceptance

namespace ApiScaffold.Document
open Assoc
variable {content v : Tree} {entries : Tree.Entries} {s : Tree}

/-- Every key can be written. -/
def WritableKeys (entries : Tree.Entries) : Prop :=
  ∀ e ∈ entries, e.1.isWritable = true

instance (entries : Tree.Entries) : Decidable (WritableKeys entries) :=
  inferInstanceAs (Decidable (∀ e ∈ entries, e.1.isWritable = true))

/-- The first key that cannot be written stops the naming of all. -/
theorem mapM_nameOf (f : Text → Text) (entries : Tree.Entries) :
    (entries.mapM fun e => do .ok (f (← nameOf e.1), e.2)) =
      if WritableKeys entries then .ok (entries.map fun e => (f e.1.name, e.2))
      else .error Fault.numberTooLong := by
  induction entries with
  | nil => rfl
  | cons e rest ih =>
    have hcons : WritableKeys (e :: rest) ↔ e.1.isWritable = true ∧ WritableKeys rest :=
      List.forall_mem_cons
    rw [List.mapM_cons]
    cases he : e.1.isWritable with
    | false =>
      rw [nameOf_of_not_isWritable he, if_neg (by simp [hcons, he])]
      rfl
    | true =>
      rw [nameOf_of_isWritable he, ih]
      simp only [hcons, he, true_and]
      split <;> rfl

/-- What stands in a content, under the media types without their parameters. -/
def typed (entries : Tree.Entries) : Assoc Tree :=
  entries.map fun e => (mediaType e.1.name, e.2)

/-- `application/json`, and every type that ends in `+json`. -/
def IsJson (type : Text) : Prop :=
  type = "application/json" ∨ isJsonType type = true

/-- The entry that decides about the schema of a content: the last one of `application/json`, if it
is not null, and otherwise the last one of that `+json` type which comes up first. -/
inductive Decides (media : Assoc Tree) (v : Tree) : Prop
  | named (last : IsLast ("application/json", v) media) (value : v ≠ .null)
  | suffixed {type : Text} (absent : ∀ w, IsLast ("application/json", w) media → w = .null)
      (first : media.keys.find? isJsonType = some type) (last : IsLast (type, v) media)

theorem jsonContent?_eq_some_iff {media : Assoc Tree} :
    jsonContent? (ofList media) = some v ↔ Decides media v := by
  have hnull (t : Tree) : (!t.isNull) = true ↔ t ≠ .null := by cases t <;> simp [Tree.isNull]
  rw [jsonContent?, Option.or_eq_some_iff, Option.filter_eq_some_iff, Option.filter_eq_none_iff,
    find?_ofList_eq_some_iff (p := isJsonType)]
  simp only [get?_ofList_eq_some_iff, hnull, not_not]
  constructor
  · rintro (⟨hlast, hv⟩ | ⟨habsent, type, hfirst, hlast⟩)
    · exact .named hlast hv
    · exact .suffixed habsent hfirst hlast
  · rintro (⟨hlast, hv⟩ | ⟨habsent, hfirst, hlast⟩)
    · exact .inl ⟨hlast, hv⟩
    · exact .inr ⟨habsent, _, hfirst, hlast⟩

theorem jsonSchema_eq (h : content.map? = some entries) :
    jsonSchema content =
      if WritableKeys entries then
        .ok ((jsonContent? (ofList (typed entries))).bind (present? · "schema"))
      else .error .numberTooLong := by
  rw [jsonSchema]
  simp only [h, mapM_nameOf mediaType]
  split <;> rfl

theorem exists_mem_of_decides (h : Decides (typed entries) v) :
    ∃ e ∈ entries, IsJson (mediaType e.1.name) ∧ e.2 = v := by
  have hentry {type : Text} (hlast : IsLast (type, v) (typed entries)) (hjson : IsJson type) :
      ∃ e ∈ entries, IsJson (mediaType e.1.name) ∧ e.2 = v := by
    obtain ⟨before, after, hsplit, -⟩ := hlast
    have hm : (type, v) ∈ typed entries := hsplit ▸ by simp
    obtain ⟨e, he, hpair⟩ := List.mem_map.mp hm
    obtain ⟨rfl, rfl⟩ := Prod.mk.inj hpair
    exact ⟨e, he, hjson, rfl⟩
  cases h with
  | named hlast _ => exact hentry hlast (.inl rfl)
  | suffixed _ hfirst hlast => exact hentry hlast (.inr (List.find?_some hfirst))

/-- A content has the schema of the entry that decides, or none at all. So a schema comes from an
entry of a JSON media type, and one that such an entry has is missed just where another entry
decides that has none, or where a key cannot be written. -/
theorem jsonSchema_eq_some_iff (h : content.map? = some entries) :
    (∀ s, jsonSchema content = .ok (some s) ↔
      WritableKeys entries ∧
        ∃ v, Decides (typed entries) v ∧ present? v "schema" = some s) ∧
    (jsonSchema content = .ok none ↔
      WritableKeys entries ∧
        ∀ v, Decides (typed entries) v → present? v "schema" = none) ∧
    ∀ s, jsonSchema content = .ok (some s) →
      ∃ e ∈ entries, IsJson (mediaType e.1.name) ∧ present? e.2 "schema" = some s := by
  have hsome (s : Tree) : jsonSchema content = .ok (some s) ↔
      WritableKeys entries ∧ ∃ v, Decides (typed entries) v ∧ present? v "schema" = some s := by
    rw [jsonSchema_eq h]
    split
    · rename_i hkeys
      simp [hkeys, Option.bind_eq_some_iff, jsonContent?_eq_some_iff]
    · rename_i hkeys
      simp [hkeys]
  refine ⟨hsome, ?_, fun s hs => ?_⟩
  · rw [jsonSchema_eq h]
    split
    · rename_i hkeys
      simp [hkeys, Option.bind_eq_none_iff, jsonContent?_eq_some_iff]
    · rename_i hkeys
      simp [hkeys]
  · obtain ⟨-, v, hv, hschema⟩ := (hsome s).mp hs
    obtain ⟨e, he, hjson, rfl⟩ := exists_mem_of_decides hv
    exact ⟨e, he, hjson, hschema⟩

/-- What stands under a media type with a schema. -/
def described : Tree :=
  .map [(.str "schema", .map [(.str "type", .str "object")])]

/-- A content of two media types, the first of which is written without a value. -/
def bareFirst : Tree.Entries :=
  [(.str "application/hal+json", .null), (.str "application/vnd.api+json", described)]

/-- In the other order, the schema is found. -/
theorem jsonSchema_eq_some_iff_bareLast :
    (Tree.map bareFirst.reverse).map? = some bareFirst.reverse ∧
      jsonSchema (.map bareFirst.reverse) = .ok (some (.map [(.str "type", .str "object")])) := by
  have hkeys : (typed bareFirst.reverse).keys =
      ["application/vnd.api+json", "application/hal+json"].map Text.ofString := by
    decide +kernel
  have hlast : IsLast ("application/vnd.api+json", described) (typed bareFirst.reverse) :=
    ⟨[], _, rfl, by decide +kernel⟩
  refine ⟨rfl, ((jsonSchema_eq_some_iff rfl).1 _).mpr ⟨by decide +kernel, _, .suffixed ?_ ?_ hlast, rfl⟩⟩
  · rintro w ⟨before, after, hsplit, -⟩
    have hm : Text.ofString "application/json" ∈ (typed bareFirst.reverse).keys := by
      simp [hsplit, keys]
    rw [hkeys] at hm
    exact absurd hm (by decide)
  · rw [hkeys]
    decide

/-- A type without a value hides the schema of the next. -/
theorem jsonSchema_bareFirst :
    (∃ e ∈ bareFirst, IsJson (mediaType e.1.name) ∧ (present? e.2 "schema").isSome) ∧
      jsonSchema (.map bareFirst) = .ok none := by
  refine ⟨⟨_, List.mem_cons_of_mem _ List.mem_cons_self, .inr (by decide +kernel), by decide⟩, ?_⟩
  have hkeys : WritableKeys bareFirst := by decide +kernel
  have hnone : ((jsonContent? (ofList (typed bareFirst))).bind (present? · "schema")).isNone := by
    decide +kernel
  rw [jsonSchema_eq rfl, if_pos hkeys, Option.isNone_iff_eq_none.mp hnone]

end ApiScaffold.Document
