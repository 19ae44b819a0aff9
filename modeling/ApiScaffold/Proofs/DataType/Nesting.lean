import ApiScaffold.Proofs.DataType.Mentions

namespace ApiScaffold.DataType
open Text

variable {t : DataType}

section Levels
variable {written base : Text} {items : DataType} {n : Nat}

/-- How many arrays stand around each other on the outside of a type. -/
def levels : DataType → Nat
  | array items => items.levels + 1
  | primitive _ _ | reference _ | object _ => 0

/-- A text is a base that ends in no array marker, and a number of markers behind it. -/
structure HasMarkers (written base : Text) (n : Nat) : Prop where
  written_eq : written = base ++ (List.replicate n (ofString "[]")).flatten
  bare : ¬ ofString "[]" <:+ base

theorem HasMarkers.self (h : ¬ ofString "[]" <:+ base) : HasMarkers base base 0 :=
  ⟨by simp, h⟩

theorem HasMarkers.array (h : HasMarkers written base n) :
    HasMarkers (written ++ "[]") base (n + 1) := by
  refine ⟨?_, h.bare⟩
  rw [h.written_eq, List.replicate_succ', List.flatten_concat, List.append_assoc]

theorem not_marker_of_isName (h : Identifier.IsName base) : ¬ ofString "[]" <:+ base := by
  have hclosing : CodePoint.char ']' ∉ base := h.parts.not_mem (by decide)
  exact fun hmarker => hclosing (hmarker.subset (by decide))

theorem hasMarkers_of_mem_sqlWords (h : base ∈ sqlWords) : HasMarkers base base 0 :=
  .self (not_marker_of_isName (isName_of_mem_sqlWords base h))

/-- Every array of a column type is a marker behind one of the words. -/
theorem exists_sqlWord (t : DataType) : ∃ word ∈ sqlWords, HasMarkers t.sql word t.levels := by
  fun_induction sql t with
  | case1 name format =>
    have hword := sqlPrimitive_mem name format
    exact ⟨_, hword, hasMarkers_of_mem_sqlWords hword⟩
  | case2 items ih =>
    obtain ⟨word, hword, h⟩ := ih
    refine ⟨word, hword, ?_⟩
    rw [ofString_append]
    exact h.array
  | case3 => exact ⟨_, json_mem_sqlWords, hasMarkers_of_mem_sqlWords json_mem_sqlWords⟩
  | case4 => exact ⟨_, json_mem_sqlWords, hasMarkers_of_mem_sqlWords json_mem_sqlWords⟩

/-- What stands before the markers in the client code: the name of the interface that is shown, or
a built-in type where none is. -/
inductive ClientBase (t : DataType) : Text → Prop
  | interface {e : Text} (h : t.Shows e) : ClientBase t (Identifier.clean "any" e)
  | builtIn {base : Text} (hno : ∀ e, ¬ t.Shows e) (h : base ∈ builtIn) : ClientBase t base

theorem shows_array : (DataType.array items).Shows e ↔ items.Shows e := by
  constructor
  · rintro (_ | h)
    exact h
  · exact .array

theorem ClientBase.array (h : items.ClientBase base) : (DataType.array items).ClientBase base := by
  cases h with
  | interface h => exact .interface (.array h)
  | builtIn hno h => exact .builtIn (fun e he => hno e (shows_array.mp he)) h

theorem ClientBase.bare (h : t.ClientBase base) : ¬ ofString "[]" <:+ base := by
  cases h with
  | interface h => exact not_marker_of_isName (Identifier.isName_clean (by decide))
  | builtIn hno h =>
    have hall : ∀ word ∈ DataType.builtIn, ¬ ofString "[]" <:+ word := by decide
    exact hall base h

/-- Every array of a client type is a marker behind its base. -/
theorem exists_clientBase (t : DataType) :
    ∃ base, t.ClientBase base ∧ HasMarkers t.client base t.levels := by
  fun_induction client t with
  | case1 name format =>
    have h : (primitive name format).ClientBase (clientPrimitive name) :=
      .builtIn (by nofun) (clientPrimitive_mem name)
    exact ⟨_, h, .self h.bare⟩
  | case2 items ih =>
    obtain ⟨base, hbase, h⟩ := ih
    exact ⟨base, hbase.array, h.array⟩
  | case3 name =>
    have h : (reference name).ClientBase (Identifier.clean "any" name) := .interface .reference
    exact ⟨_, h, .self h.bare⟩
  | case4 properties =>
    have h : (object properties).ClientBase "Record<string, any>" :=
      .builtIn (by nofun) (by decide)
    exact ⟨_, h, .self h.bare⟩

/-- A marker in the name of an entity is no array. -/
example : (DataType.array (.reference "Pet[]")).client = ofString "Pet" ++ ofString "[]" := by
  decide

end Levels

section Places
variable {e : Text} {front : List (Text × DataType)} {property : Text × DataType}
  {place : List Nat}

/-- An entity is referred to at a place of a type. The place is the way there by the numbers of the
properties that it stands in, from the outside; an array has its item only. -/
inductive RefersAt (e : Text) : DataType → List Nat → Prop
  | reference : RefersAt e (.reference e) []
  | array {items : DataType} {place : List Nat} (h : RefersAt e items place) :
      RefersAt e (.array items) place
  | object {properties : List (Text × DataType)} {i : Nat} {property : Text × DataType}
      {inner : List Nat} (hi : properties[i]? = some property) (h : RefersAt e property.2 inner) :
      RefersAt e (.object properties) (i :: inner)

theorem mentions_iff_exists_place : t.Mentions e ↔ ∃ place, t.RefersAt e place := by
  constructor
  · intro h
    induction h with
    | reference => exact ⟨[], .reference⟩
    | array _ ih =>
      obtain ⟨place, h⟩ := ih
      exact ⟨place, .array h⟩
    | object hm _ ih =>
      obtain ⟨i, hi⟩ := List.mem_iff_getElem?.mp hm
      obtain ⟨inner, h⟩ := ih
      exact ⟨i :: inner, .object hi h⟩
  · rintro ⟨place, h⟩
    induction h with
    | reference => exact .reference
    | array _ ih => exact .array ih
    | object hi _ ih => exact .object (List.mem_of_getElem? hi) ih

/-- A place is in the last property or in one of those in front of it. -/
theorem refersAt_concat :
    (object (front ++ [property])).RefersAt e place ↔ (object front).RefersAt e place ∨
      ∃ inner, place = front.length :: inner ∧ property.2.RefersAt e inner := by
  constructor
  · rintro (_ | _ | @⟨_, i, p, inner, hi, h⟩)
    rw [List.getElem?_append] at hi
    split at hi
    · exact .inl (.object hi h)
    · obtain ⟨hlast, hp⟩ := List.getElem?_eq_some_iff.mp hi
      rw [List.getElem_singleton] at hp
      rw [List.length_singleton] at hlast
      obtain rfl : i = front.length := by omega
      exact .inr ⟨inner, rfl, hp ▸ h⟩
  · rintro (h | ⟨inner, rfl, h⟩)
    · obtain _ | _ | ⟨hi, h⟩ := h
      exact .object (List.getElem?_append_left (List.getElem?_eq_some_iff.mp hi).1 ▸ hi) h
    · exact .object (by simp) h

/-- The places of an object are in front of those of a property behind it. -/
theorem lt_of_refersAt_object (h : (object front).RefersAt e place) (inner : List Nat) :
    place < front.length :: inner := by
  obtain _ | _ | ⟨hi, h⟩ := h
  exact List.cons_lt_cons_iff.mpr (.inl (List.getElem?_eq_some_iff.mp hi).1)

end Places

section Order
variable {a b e : Text} {items : DataType} {front : List (Text × DataType)}
  {property : Text × DataType} {known new : List Text}

/-- An entity is seen before another one if one of its places is in front of all those of the
other. -/
def SeenBefore (t : DataType) (a b : Text) : Prop :=
  ∃ place, t.RefersAt a place ∧ ∀ other, t.RefersAt b other → place < other

theorem SeenBefore.ne (h : t.SeenBefore a b) : a ≠ b := by
  rintro rfl
  obtain ⟨place, hplace, hfirst⟩ := h
  exact List.lt_irrefl place (hfirst place hplace)

/-- What has a place is in front of what has none. -/
theorem seenBefore_of_not_mentions (ha : t.Mentions a) (hb : ¬ t.Mentions b) :
    t.SeenBefore a b := by
  obtain ⟨place, hplace⟩ := mentions_iff_exists_place.mp ha
  refine ⟨place, hplace, fun other hother => ?_⟩
  exact absurd (mentions_iff_exists_place.mpr ⟨other, hother⟩) hb

theorem SeenBefore.array (h : items.SeenBefore a b) : (DataType.array items).SeenBefore a b := by
  obtain ⟨place, hplace, hfirst⟩ := h
  refine ⟨place, .array hplace, ?_⟩
  rintro other (_ | hother)
  exact hfirst other hother

/-- What comes in one more property is behind all that is there. -/
theorem SeenBefore.concat (h : (object front).SeenBefore a b) :
    (object (front ++ [property])).SeenBefore a b := by
  obtain ⟨place, hplace, hfirst⟩ := h
  refine ⟨place, refersAt_concat.mpr (.inl hplace), fun other hother => ?_⟩
  rcases refersAt_concat.mp hother with hother | ⟨inner, rfl, -⟩
  · exact hfirst other hother
  · exact lt_of_refersAt_object hplace inner

/-- What is new in one more property comes in the order of that property. -/
theorem SeenBefore.in_last (h : property.2.SeenBefore a b) (hb : ¬ (object front).Mentions b) :
    (object (front ++ [property])).SeenBefore a b := by
  obtain ⟨place, hplace, hfirst⟩ := h
  refine ⟨_, refersAt_concat.mpr (.inr ⟨place, rfl, hplace⟩), fun other hother => ?_⟩
  rcases refersAt_concat.mp hother with hother | ⟨inner, rfl, hinner⟩
  · exact absurd (mentions_iff_exists_place.mpr ⟨other, hother⟩) hb
  · exact List.cons_lt_cons_iff.mpr (.inr ⟨rfl, hfirst inner hinner⟩)

/-- Names that are told apart are added in their order, without those that are there. -/
theorem addNames_eq_append (h : new.Nodup) :
    addNames known new = known ++ new.filter (· ∉ known) := by
  unfold addNames
  induction new generalizing known with
  | nil => simp
  | cons name new ih =>
    obtain ⟨hfresh, hnew⟩ := List.nodup_cons.mp h
    rw [List.foldl_cons, ih hnew]
    split
    · rename_i hm
      simp [hm]
    · rename_i hm
      have hsame : new.filter (· ∉ known ++ [name]) = new.filter (· ∉ known) := by
        refine List.filter_congr fun m hmem => ?_
        have hne : m ≠ name := fun he => hfresh (he ▸ hmem)
        simp [hne]
      rw [hsame]
      simp [hm]

/-- The names that a type refers to, in the order in which they are first seen. -/
structure FirstSeen (t : DataType) (names : List Text) : Prop where
  mem : ∀ e, e ∈ names ↔ t.Mentions e
  ordered : names.Pairwise t.SeenBefore

theorem FirstSeen.nodup (h : FirstSeen t new) : new.Nodup :=
  h.ordered.imp SeenBefore.ne

theorem mentions_concat : (object (front ++ [property])).Mentions e ↔
    (object front).Mentions e ∨ property.2.Mentions e := by
  simp [mentions_object, or_and_right, exists_or]

/-- The names of one more property are added to those of the properties in front of it. -/
theorem FirstSeen.concat (hfront : FirstSeen (object front) known)
    (hlast : FirstSeen property.2 new) :
    FirstSeen (object (front ++ [property])) (addNames known new) := by
  refine ⟨fun e => ?_, ?_⟩
  · rw [mem_addNames, hfront.mem, hlast.mem, mentions_concat]
  · rw [addNames_eq_append hlast.nodup]
    have hnew {b : Text} (hb : b ∈ new.filter (· ∉ known)) : ¬ (object front).Mentions b := by
      rw [← hfront.mem]
      simpa using (List.mem_filter.mp hb).2
    refine List.pairwise_append.mpr ⟨hfront.ordered.imp .concat, ?_, fun a ha b hb => ?_⟩
    · refine (hlast.ordered.filter _).imp_of_mem fun _ hb h => h.in_last (hnew hb)
    · exact (seenBefore_of_not_mentions ((hfront.mem a).mp ha) (hnew hb)).concat

mutual

theorem firstSeen_entities (t : DataType) : FirstSeen t t.entities := by
  refine ⟨fun e => mem_entities_iff t, ?_⟩
  cases t with
  | primitive name format =>
    rw [entities]
    exact .nil
  | array items =>
    rw [entities]
    exact (firstSeen_entities items).ordered.imp .array
  | reference name =>
    rw [entities]
    exact List.pairwise_singleton _ _
  | object properties =>
    have hnone : FirstSeen (object []) [] := ⟨fun e => by simp [mentions_object], .nil⟩
    rw [entities]
    exact (firstSeen_propertyEntities [] properties hnone).ordered

-- The properties that are done go along: a place counts them.
theorem firstSeen_propertyEntities (front rest : List (Text × DataType)) {known : List Text}
    (h : FirstSeen (object front) known) :
    FirstSeen (object (front ++ rest)) (propertyEntities known rest) := by
  match rest with
  | [] =>
    rw [List.append_nil, propertyEntities]
    exact h
  | (name, t) :: rest =>
    have hnext : FirstSeen (object (front ++ [(name, t)])) (addNames known t.entities) :=
      h.concat (firstSeen_entities t)
    rw [List.append_cons, propertyEntities]
    exact firstSeen_propertyEntities (front ++ [(name, t)]) rest hnext

end

end Order

/-- The column type and the client type of a type are words with one marker for each of its arrays,
as many in the one as in the other, and the entities in it are listed once each, in the order in
which a reading from the front comes upon them. -/
theorem readings_follow_nesting (t : DataType) :
    (∃ word ∈ sqlWords, Identifier.IsName word ∧ HasMarkers t.sql word t.levels) ∧
      (∃ base, t.ClientBase base ∧ HasMarkers t.client base t.levels) ∧
      t.entities.Nodup ∧ (∀ e, e ∈ t.entities ↔ ∃ place, t.RefersAt e place) ∧
      t.entities.Pairwise t.SeenBefore := by
  have hseen : FirstSeen t t.entities := firstSeen_entities t
  obtain ⟨word, hword, hsql⟩ := exists_sqlWord t
  refine ⟨⟨word, hword, isName_of_mem_sqlWords word hword, hsql⟩, exists_clientBase t, hseen.nodup,
    fun e => ?_, hseen.ordered⟩
  rw [hseen.mem, mentions_iff_exists_place]

end ApiScaffold.DataType
