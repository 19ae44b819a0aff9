import ApiScaffold.DataType
import ApiScaffold.Proofs.Name.Cleaned
import Mathlib.Data.List.Nodup

namespace ApiScaffold.DataType

section Names
variable {known new : List Text} {name : Text}

theorem mem_addNames : name ∈ addNames known new ↔ name ∈ known ∨ name ∈ new := by
  unfold addNames
  induction new generalizing known with
  | nil => simp
  | cons m new ih =>
    rw [List.foldl_cons, ih]
    split
    · rename_i hm
      constructor
      · exact Or.imp_right (List.mem_cons_of_mem _)
      · rintro (hk | hn)
        · exact .inl hk
        · rcases List.mem_cons.mp hn with rfl | hn
          · exact .inl hm
          · exact .inr hn
    · simp [or_assoc]

/-- Names that are told apart stay so, and no name is added again. -/
theorem nodup_addNames (h : known.Nodup) : (addNames known new).Nodup := by
  unfold addNames
  induction new generalizing known with
  | nil => exact h
  | cons m new ih =>
    rw [List.foldl_cons]
    split
    · exact ih h
    · rename_i hm
      refine ih (List.nodup_append.mpr ⟨h, List.nodup_singleton m, ?_⟩)
      intro a ha b hb he
      obtain rfl := List.mem_singleton.mp hb
      exact hm (he ▸ ha)

end Names

variable {policy : Name.Policy} {name base e : Text} {t : DataType}

/-- A type refers to an entity, at whatever depth. -/
inductive Mentions (e : Text) : DataType → Prop
  | reference : Mentions e (.reference e)
  | array {items : DataType} (h : Mentions e items) : Mentions e (.array items)
  | object {properties : List (Text × DataType)} {property : Text × DataType}
      (hm : property ∈ properties) (h : Mentions e property.2) : Mentions e (.object properties)

section Entities

theorem mentions_array {items : DataType} :
    (DataType.array items).Mentions e ↔ items.Mentions e := by
  constructor
  · rintro (_ | h)
    exact h
  · exact .array

theorem mentions_object {properties : List (Text × DataType)} :
    (DataType.object properties).Mentions e ↔ ∃ p ∈ properties, p.2.Mentions e := by
  constructor
  · rintro (_ | _ | ⟨hm, h⟩)
    exact ⟨_, hm, h⟩
  · rintro ⟨p, hm, h⟩
    exact .object hm h

mutual

/-- Those are listed that the type refers to. -/
theorem mem_entities_iff (t : DataType) : e ∈ t.entities ↔ t.Mentions e := by
  cases t with
  | primitive name format =>
    rw [entities]
    constructor
    · nofun
    · nofun
  | array items => rw [entities, mentions_array, mem_entities_iff items]
  | reference name =>
    rw [entities, List.mem_singleton]
    constructor
    · rintro rfl
      exact .reference
    · rintro ⟨⟩
      rfl
  | object properties =>
    rw [entities, mentions_object, mem_propertyEntities_iff]
    simp

theorem mem_propertyEntities_iff (properties : List (Text × DataType)) {known : List Text} :
    e ∈ propertyEntities known properties ↔ e ∈ known ∨ ∃ p ∈ properties, p.2.Mentions e := by
  match properties with
  | [] =>
    rw [propertyEntities]
    simp
  | (name, t) :: rest =>
    rw [propertyEntities, mem_propertyEntities_iff rest, mem_addNames, mem_entities_iff t,
      List.exists_mem_cons_iff, or_assoc]

end

end Entities

section Names

/-- What is left of a body type when all markers of arrays at its end are taken off. -/
inductive BaseName : Text → Text → Prop
  | self {name : Text} (h : ¬ Text.ofString "[]" <:+ name) : BaseName name name
  | array {name base : Text} (h : BaseName name base) : BaseName (name ++ "[]") base

theorem reverse_markers (rest : Text) :
    (.char ']' :: .char '[' :: rest : Text).reverse = rest.reverse ++ Text.ofString "[]" := by
  simp [Text.ofString, Text.ofChars]

/-- The markers are counted from the end. -/
theorem baseName_reverse (backwards : Text) :
    BaseName backwards.reverse (splitMarkers backwards).1.reverse := by
  fun_induction splitMarkers backwards with
  | case1 rest base n hrest ih =>
    rw [reverse_markers]
    rw [hrest] at ih
    exact .array ih
  | case2 base hno =>
    apply BaseName.self
    rintro ⟨rest, hbase⟩
    apply hno rest.reverse
    rw [← List.reverse_inj, reverse_markers, List.reverse_reverse, hbase]

theorem BaseName.unique {other : Text} (h : BaseName name base) (h' : BaseName name other) :
    base = other := by
  induction h with
  | self hno =>
    cases h' with
    | self => rfl
    | array => exact absurd (List.suffix_append _ _) hno
  | @array name base h ih =>
    generalize hn : name ++ Text.ofString "[]" = marked at h'
    cases h' with
    | self hno => exact absurd (hn ▸ List.suffix_append _ _) hno
    | array h' =>
      rw [List.append_left_inj] at hn
      exact ih (hn ▸ h')

theorem baseName_iff : BaseName name base ↔ base = (splitMarkers name.reverse).1.reverse := by
  have hname : BaseName name (splitMarkers name.reverse).1.reverse := by
    simpa using baseName_reverse name.reverse
  constructor
  · exact fun h => h.unique hname
  · rintro rfl
    exact hname

theorem mentions_arrays (n : Nat) : (arrays n t).Mentions e ↔ t.Mentions e := by
  induction n with
  | zero => rfl
  | succ n ih => rw [arrays, mentions_array, ih]

theorem mentions_ofBase : (ofBase policy base).Mentions e ↔ policy.isEntity base = true ∧ e = base := by
  unfold ofBase
  split
  · rename_i he
    rw [and_iff_right he]
    constructor
    · rintro ⟨⟩
      rfl
    · rintro rfl
      exact .reference
  · rename_i he
    have hnone {t : DataType} (ht : t.entities = []) : ¬ t.Mentions e := by
      rw [← mem_entities_iff, ht]
      exact List.not_mem_nil
    have hno : ¬ (policy.isEntity base = true ∧ e = base) := fun h => he h.1
    refine iff_of_false ?_ hno
    split
    · exact hnone rfl
    · split
      · exact hnone rfl
      · exact hnone rfl

/-- A body type refers to its base name if that is an entity, and to nothing else. -/
theorem mentions_ofName :
    (ofName policy name).Mentions e ↔ BaseName name e ∧ policy.isEntity e = true := by
  rw [ofName, mentions_arrays, mentions_ofBase, baseName_iff]
  constructor
  · rintro ⟨he, rfl⟩
    exact ⟨rfl, he⟩
  · rintro ⟨rfl, he⟩
    exact ⟨he, rfl⟩

end Names

section Expressions
variable {p q : Text → Prop} {x : Text}

/-- The types that need no declaration. -/
def builtIn : List Text :=
  ["number", "boolean", "string", "any", "Record<string, any>"]

/-- A type expression: a built-in type, or the interface of an entity, in arrays. -/
inductive Expression (p : Text → Prop) : Text → Prop
  | builtIn {x : Text} (h : x ∈ builtIn) : Expression p x
  | interface {e : Text} (h : p e) (hne : Identifier.clean "" e ≠ []) :
      Expression p (Identifier.clean "" e)
  | array {x : Text} (h : Expression p x) : Expression p (x ++ "[]")

theorem Expression.mono (h : Expression p x) (hpq : ∀ e, p e → q e) : Expression q x := by
  induction h with
  | builtIn h => exact .builtIn h
  | interface h hne => exact .interface (hpq _ h) hne
  | array _ ih => exact .array ih

theorem clientPrimitive_mem (name : Text) : Text.ofString (clientPrimitive name) ∈ builtIn := by
  unfold clientPrimitive
  split
  · decide
  · split
    · decide
    · split <;> decide

/-- A type is written by the entities that it refers to; one without a name is any. -/
theorem expression_client (t : DataType) : Expression t.Mentions t.client := by
  induction t using client.induct with
  | case1 name format => exact .builtIn (clientPrimitive_mem name)
  | case2 items ih => exact .array (ih.mono fun e h => .array h)
  | case3 name =>
    rw [client, Identifier.clean_eq_ite]
    split
    · exact .builtIn (by decide)
    · exact .interface .reference ‹_›
  | case4 properties =>
    rw [client]
    exact .builtIn (by decide)

end Expressions

section ColumnTypes

/-- The words for the types of columns and arguments that are no arrays. -/
def sqlWords : List Text :=
  ["INTEGER", "FLOAT", "BOOLEAN", "VARCHAR", "TIMESTAMP", "JSONB", "TEXT"]

theorem isName_of_mem_sqlWords : ∀ word ∈ sqlWords, Identifier.IsName word := by
  decide

theorem json_mem_sqlWords : Text.ofString "JSONB" ∈ sqlWords := by
  decide

theorem sqlPrimitive_mem (name : Text) (format : Option Text) :
    Text.ofString (sqlPrimitive name format) ∈ sqlWords := by
  unfold sqlPrimitive
  repeat' split
  all_goals decide

/-- What is true of the words, and stays true behind a marker, is true of every column type. -/
theorem sql_induction {motive : Text → Prop} (word : ∀ w ∈ sqlWords, motive w)
    (array : ∀ x, motive x → motive (x ++ Text.ofString "[]")) (t : DataType) : motive t.sql := by
  fun_induction sql t with
  | case1 name format => exact word _ (sqlPrimitive_mem name format)
  | case2 items ih =>
    rw [Text.ofString_append]
    exact array _ ih
  | case3 => exact word _ json_mem_sqlWords
  | case4 => exact word _ json_mem_sqlWords

end ColumnTypes

section Shown

/-- The entity stands in the written type, in arrays or alone. -/
inductive Shows (e : Text) : DataType → Prop
  | reference : Shows e (.reference e)
  | array {items : DataType} (h : Shows e items) : Shows e (.array items)

/-- The entity stands in a property of an object, of which nothing is written. -/
inductive Hides (e : Text) : DataType → Prop
  | array {items : DataType} (h : Hides e items) : Hides e (.array items)
  | object {properties : List (Text × DataType)} {property : Text × DataType}
      (hm : property ∈ properties) (h : property.2.Mentions e) : Hides e (.object properties)

/-- What a type refers to is written or hidden. -/
theorem mentions_iff_shows_or_hides : t.Mentions e ↔ t.Shows e ∨ t.Hides e := by
  constructor
  · intro h
    induction h with
    | reference => exact .inl .reference
    | array _ ih => exact ih.imp .array .array
    | object hm h _ => exact .inr (.object hm h)
  · rintro (h | h)
    · induction h with
      | reference => exact .reference
      | array _ ih => exact .array ih
    · induction h with
      | array _ ih => exact .array ih
      | object hm h => exact .object hm h

/-- Under the arrays of the written type is the interface of the entity. -/
theorem Shows.baseName_client (h : t.Shows e) (hne : Identifier.clean "" e ≠ []) :
    BaseName t.client (Identifier.clean "" e) := by
  induction h with
  | reference =>
    have hclient : (DataType.reference e).client = Identifier.clean "" e := by
      rw [DataType.client, Identifier.clean_eq_ite, if_neg hne]
    have hbare : CodePoint.char ']' ∉ Identifier.clean "" e :=
      (Identifier.over_clean (by decide)).not_mem (by decide)
    rw [hclient]
    exact .self fun hmarker => hbare (hmarker.subset (by decide))
  | array _ ih => exact .array ih

theorem hides_arrays (n : Nat) : (arrays n t).Hides e ↔ t.Hides e := by
  induction n with
  | zero => rfl
  | succ n ih =>
    rw [arrays, ← ih]
    constructor
    · rintro (h | _)
      exact h
    · exact .array

/-- A body type has no properties. -/
theorem not_hides_ofName : ¬ (ofName policy name).Hides e := by
  rw [ofName, hides_arrays]
  unfold ofBase
  intro h
  repeat' split at h
  · cases h
  · cases h
  · rcases h with _ | ⟨hm, _⟩
    cases hm
  · cases h

end Shown

end ApiScaffold.DataType
