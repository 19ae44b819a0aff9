import ApiScaffold.Document.Operation
import ApiScaffold.Proofs.Document.Members
import Mathlib.Logic.Relation

namespace ApiScaffold.Document

/-- A value with a label. -/
def label? : Tree → Option (Nat × Tree)
  | .recurring label t => some (label, t)
  | _ => none

theorem label?_eq_some {t s : Tree} {label : Nat} (h : label? t = some (label, s)) :
    t = .recurring label s := by
  cases t <;> simp_all [label?]

theorem sizeOf_label_lt {t s : Tree} {label : Nat} (h : label? t = some (label, s)) :
    sizeOf s < sizeOf t := by
  rw [label?_eq_some h, Tree.recurring.sizeOf_spec]
  omega

theorem ne_recurring_of_label? {t : Tree} (h : label? t = none) (label : Nat) (s : Tree) :
    t ≠ .recurring label s := by
  rintro rfl
  cases h

/-- Where a chain of references goes from a node on. -/
def followFrom (d : Document) (chain : List Text) (node : Tree) : Except Fault (Option Tree) :=
  match reference? node with
  | none => .ok (some node)
  | some (.str r) => (d.followReference chain r).result
  | some _ => .ok none

/-- One step along a chain of references. -/
theorem result_followReference (d : Document) (chain : List Text) (r : Text) :
    (d.followReference chain r).result =
      if r ∈ chain then .error (.referenceCycle (chain ++ [r]))
      else
        match d.lookup r with
        | none => .ok none
        | some next => if next.isNull then .ok none else d.followFrom (chain ++ [r]) next := by
  rw [followReference]
  split
  · rfl
  · split
    · rename_i hl
      simp only [hl]
      rfl
    · rename_i hl
      simp only [hl]
      rfl
    · rename_i next hnull hl
      have hne : next.isNull = false := by
        cases next <;> first | rfl | exact absurd rfl hnull
      simp only [hl, hne, followFrom]
      split
      · rename_i hn
        simp only [hn]
        rfl
      · rename_i further hn
        simp only [hn]
        rfl
      · rename_i hn
        simp only [hn]
        rfl

theorem result_follow (d : Document) (node : Tree) :
    (d.follow node).result = d.followFrom [] node := by
  unfold follow followFrom
  cases reference? node with
  | none => rfl
  | some v => cases v <;> rfl

/-- The name of a property with the type that a reader gives it. -/
def typedField (inside : Tree → Except Fault DataType) (e : Tree × Tree) :
    Except Fault (Text × DataType) := do
  .ok (← nameOf e.1, ← inside e.2)

/-- The type that a schema declares itself, where `inside` reads the schemas below it. -/
def declaredType (inside : Tree → Except Fault DataType) (schema : Tree) :
    Except Fault DataType :=
  if typeName schema = some ("array" : Text) then
    match schema.get? "items" with
    | some items => do .ok (.array (← inside items))
    | none => .ok (.array .unknown)
  else if typeName schema = some ("object" : Text) ∨ schema.has "properties" then
    match (schema.get "properties").map? with
    | some properties => do .ok (.object (Assoc.ofList (← properties.mapM (typedField inside))))
    | none => .ok (.object [])
  else .ok (primitiveOf (typeName schema) schema)

/-- The type of a schema that has no label. A composition of one part is that part. -/
def dataTypeStep (inside : Tree → Except Fault DataType) (schema : Tree) :
    Except Fault DataType :=
  match reference? schema with
  | some (.str r) => .ok (.reference (referenceName r))
  | _ =>
    match (schema.get "allOf").items with
    | [part] => inside part
    | _ => declaredType inside schema

theorem dataTypeStep_of_reference {inside : Tree → Except Fault DataType} {schema : Tree}
    {r : Text} (h : reference? schema = some (.str r)) :
    dataTypeStep inside schema = .ok (.reference (referenceName r)) := by
  simp only [dataTypeStep, h]

theorem dataTypeStep_of_part {inside : Tree → Except Fault DataType} {schema part : Tree}
    (h : ∀ r, reference? schema ≠ some (.str r)) (hp : (schema.get "allOf").items = [part]) :
    dataTypeStep inside schema = inside part := by
  unfold dataTypeStep
  split
  · rename_i r hr
    exact absurd hr (h r)
  · simp only [hp]

theorem dataTypeStep_of_declared {inside : Tree → Except Fault DataType} {schema : Tree}
    (h : ∀ r, reference? schema ≠ some (.str r))
    (hp : ∀ part, (schema.get "allOf").items ≠ [part]) :
    dataTypeStep inside schema = declaredType inside schema := by
  unfold dataTypeStep
  split
  · rename_i r hr
    exact absurd hr (h r)
  · split
    · rename_i part hpart
      exact absurd hpart (hp part)
    · rfl

theorem mapM_attach {α β : Type} {ε : Type} (l : List α) (f : α → Except ε β) :
    (l.attach.mapM fun a => f a.1) = l.mapM f := by
  rw [List.mapM_subtype fun _ _ => rfl, List.unattach_attach]

theorem dataTypeWithin_eq_step {around : List Nat} {schema : Tree} (h : label? schema = none) :
    dataTypeWithin around schema = dataTypeStep (dataTypeWithin around) schema := by
  have hplain := ne_recurring_of_label? h
  rw [dataTypeWithin]
  · split
    · rename_i r hr
      rw [dataTypeStep_of_reference hr]
    · rename_i hr
      split
      · rename_i part hpart
        rw [dataTypeStep_of_part (fun r h => hr r h) hpart]
      · rename_i hparts
        rw [dataTypeStep_of_declared (fun r h => hr r h) fun part h => hparts part h, declaredType]
        simp only
        split
        · split
          · rename_i items hitems
            simp only [hitems]
          · rename_i hitems
            simp only [hitems]
        · split
          · split
            · rename_i properties hproperties
              simp only [hproperties]
              have hfields := mapM_attach properties (typedField (dataTypeWithin around))
              rw [← hfields]
              rfl
            · rename_i hproperties
              simp only [hproperties]
          · rfl
  · exact fun label t he => absurd he (hplain label t)

theorem dataTypeWithin_recurring {around : List Nat} {label : Nat} {t : Tree} :
    dataTypeWithin around (.recurring label t) =
      if label ∈ around then .error .endless else dataTypeWithin (label :: around) t := by
  rw [dataTypeWithin]

theorem dataType_empty : dataType (.map []) = .ok .unknown := by
  rw [dataType, dataTypeWithin_eq_step rfl]
  rfl

/-- Puts a response among those of success, if it is one. -/
def insertResponse (sorted : List (Nat × Tree)) (e : Text × Tree) : List (Nat × Tree) :=
  match successCode? e.1 with
  | some code => insertByCode code e.2 sorted
  | none => sorted

theorem successes_eq (responses : Assoc Tree) :
    successes responses = responses.foldl insertResponse [] :=
  rfl

section Arrays
open Relation
variable {around : List Nat} {label depth : Nat} {schema next inner t : Tree} {e : Fault}

theorem isArray_recurring : IsArray (.recurring label t) ↔ IsArray t :=
  Iff.rfl

theorem not_isArray_of_reference {v : Tree} (h : reference? schema = some v) :
    ¬ IsArray schema := by
  rintro ⟨hnone, -⟩
  rw [h] at hnone
  cases hnone

/-- One step into an array: behind its label, or to its items. -/
inductive Inward : Tree → Tree → Prop
  | label {label : Nat} {t : Tree} (array : IsArray (.recurring label t)) :
      Inward (.recurring label t) t
  | items {schema items : Tree} (plain : label? schema = none) (array : IsArray schema)
      (content : schema.get? "items" = some items) : Inward schema items

/-- Inside of the schema is an array with one of the labels, or it is one. -/
def ComesTo (labels : List Nat) (schema : Tree) : Prop :=
  ∃ label ∈ labels, ∃ t, ReflTransGen Inward schema (.recurring label t) ∧
    IsArray (.recurring label t)

/-- An array that is met again further inside of itself, or one around such an array. -/
def ArrayOfItself (schema : Tree) : Prop :=
  ∃ label t, ReflTransGen Inward schema (.recurring label t) ∧ IsArray (.recurring label t) ∧
    ComesTo [label] t

theorem Inward.isArray (h : Inward schema next) : IsArray schema := by
  cases h with
  | label array => exact array
  | items _ array => exact array

theorem Inward.unique (h : Inward schema next) (h' : Inward schema t) : next = t := by
  cases h with
  | label =>
    cases h' with
    | label => rfl
    | items plain => cases plain
  | items plain _ content =>
    cases h' with
    | label => cases plain
    | items _ _ content' => exact Option.some.inj (content.symm.trans content')

theorem Inward.reaches_iff (h : Inward schema next) :
    ReflTransGen Inward schema t ↔ schema = t ∨ ReflTransGen Inward next t := by
  rw [ReflTransGen.cases_head_iff]
  refine or_congr_right ⟨?_, fun hnext => ⟨next, h, hnext⟩⟩
  rintro ⟨s, hs, hnext⟩
  rwa [h.unique hs]

theorem Inward.comesTo_iff (h : Inward schema next) {labels : List Nat} :
    ComesTo labels schema ↔
      (∃ label ∈ labels, ∃ t, schema = .recurring label t) ∨ ComesTo labels next := by
  constructor
  · rintro ⟨label, hl, t, hreach, harray⟩
    rcases h.reaches_iff.mp hreach with rfl | hreach
    · exact .inl ⟨label, hl, t, rfl⟩
    · exact .inr ⟨label, hl, t, hreach, harray⟩
  · rintro (⟨label, hl, t, rfl⟩ | ⟨label, hl, t, hreach, harray⟩)
    · exact ⟨label, hl, t, .refl, h.isArray⟩
    · exact ⟨label, hl, t, hreach.head h, harray⟩

theorem Inward.arrayOfItself_iff (h : Inward schema next) :
    ArrayOfItself schema ↔
      (∃ label, schema = .recurring label next ∧ ComesTo [label] next) ∨ ArrayOfItself next := by
  constructor
  · rintro ⟨label, t, hreach, harray, hagain⟩
    rcases h.reaches_iff.mp hreach with rfl | hreach
    · obtain rfl := h.unique (.label harray)
      exact .inl ⟨label, rfl, hagain⟩
    · exact .inr ⟨label, t, hreach, harray, hagain⟩
  · rintro (⟨label, rfl, hagain⟩ | ⟨label, t, hreach, harray, hagain⟩)
    · exact ⟨label, next, .refl, h.isArray, hagain⟩
    · exact ⟨label, t, hreach.head h, harray, hagain⟩

theorem comesTo_cons {labels : List Nat} :
    ComesTo (label :: labels) t ↔ ComesTo [label] t ∨ ComesTo labels t := by
  simp only [ComesTo, List.mem_cons, List.not_mem_nil, or_false, or_and_right, exists_or,
    exists_eq_left]

/-- What has no step inward comes to nothing but itself. -/
theorem not_arrayOfItself_of_stop (h : ∀ s, ¬ Inward schema s) : ¬ ArrayOfItself schema := by
  rintro ⟨label, t, hreach, harray, -⟩
  rcases hreach.cases_head with rfl | ⟨s, hs, -⟩
  · exact h t (.label harray)
  · exact h s hs

theorem not_arrayOfItself_of_not_isArray (h : ¬ IsArray schema) : ¬ ArrayOfItself schema :=
  not_arrayOfItself_of_stop fun _ hs => h hs.isArray

theorem not_comesTo_of_stop {labels : List Nat} (h : ∀ s, ¬ Inward schema s) :
    ¬ ComesTo labels schema := by
  rintro ⟨label, -, t, hreach, harray⟩
  rcases hreach.cases_head with rfl | ⟨s, hs, -⟩
  · exact h t (.label harray)
  · exact h s hs

theorem label?_eq_none (h : ∀ label s, t ≠ .recurring label s) : label? t = none := by
  cases t with
  | recurring label s => exact absurd rfl (h label s)
  | _ => rfl

/-- By induction on the search, general in the labels that it is inside of. -/
theorem unwrapWithin_eq_looping_iff :
    unwrapWithin around schema = .error .looping ↔
      ComesTo around schema ∨ ArrayOfItself schema := by
  fun_induction unwrapWithin around schema with
  | case1 around label t hl harray =>
    simp only [true_iff]
    exact .inl ⟨label, hl, t, .refl, harray⟩
  | case2 around label t hl harray ih =>
    have hstep : Inward (.recurring label t) t := .label harray
    have hself : ¬ ∃ l ∈ around, ∃ s, Tree.recurring label t = .recurring l s := by
      rintro ⟨l, hmem, s, he⟩
      cases he
      exact hl hmem
    have hthis : (∃ l, Tree.recurring label t = .recurring l t ∧ ComesTo [l] t) ↔
        ComesTo [label] t := by
      simp
    rw [ih, hstep.comesTo_iff, hstep.arrayOfItself_iff, hthis, comesTo_cons, or_iff_right hself,
      or_assoc, or_left_comm]
  | case3 around schema hplain items hitems harray ih =>
    have hstep : Inward schema items := .items (label?_eq_none hplain) harray hitems
    have hself : ¬ ∃ l ∈ around, ∃ s, schema = .recurring l s := by
      rintro ⟨l, -, s, he⟩
      exact hplain l s he
    have hthis : ¬ ∃ l, schema = .recurring l items ∧ ComesTo [l] items := by
      rintro ⟨l, he, -⟩
      exact hplain l items he
    rw [hstep.comesTo_iff, hstep.arrayOfItself_iff, or_iff_right hself, or_iff_right hthis, ← ih]
    cases unwrapWithin around items with
    | error e => exact Iff.rfl
    | ok found => simp [bind, Except.bind]
  | case4 around schema hplain hitems harray =>
    have hstop : ∀ s, ¬ Inward schema s := by
      intro s hs
      cases hs with
      | label => exact hplain _ _ rfl
      | items _ _ content => cases hitems.symm.trans content
    simp [not_comesTo_of_stop hstop, not_arrayOfItself_of_stop hstop]
  | case5 around schema harray =>
    have hstop : ∀ s, ¬ Inward schema s := fun s hs => harray hs.isArray
    simp [not_comesTo_of_stop hstop, not_arrayOfItself_of_stop hstop]

theorem eq_looping_of_unwrapWithin (h : unwrapWithin around schema = .error e) : e = .looping := by
  fun_induction unwrapWithin around schema with
  | case1 =>
    cases h
    rfl
  | case2 around label t hl harray ih => exact ih h
  | case3 around schema hplain items hitems harray ih =>
    rcases error_of_bind h with hitems | ⟨found, -, h⟩
    · exact ih hitems
    · cases h
  | case4 => cases h
  | case5 => cases h

/-- The search goes on for ever just in an array of itself. -/
theorem unwrap_eq_looping_iff : unwrap schema = .error .looping ↔ ArrayOfItself schema := by
  rw [unwrap, unwrapWithin_eq_looping_iff, or_iff_right]
  rintro ⟨label, hl, -⟩
  cases hl

theorem exists_unwrap (h : ¬ ArrayOfItself schema) :
    ∃ inner depth, unwrap schema = .ok (inner, depth) := by
  cases hu : unwrap schema with
  | ok found => exact ⟨found.1, found.2, rfl⟩
  | error e =>
    obtain rfl := eq_looping_of_unwrapWithin hu
    exact absurd (unwrap_eq_looping_iff.mp hu) h

theorem unwrapWithin_of_not_isArray (h : ¬ IsArray schema) :
    unwrapWithin around schema = .ok (schema, 0) := by
  fun_cases unwrapWithin around schema with
  | case1 label t _ harray => exact absurd harray h
  | case2 label t _ harray => exact absurd harray h
  | case3 _ items _ _ harray => exact absurd harray h
  | case4 _ _ _ harray => exact absurd harray h
  | case5 => rfl

theorem unwrapWithin_recurring (h : IsArray t) :
    unwrapWithin around (.recurring label t) =
      if label ∈ around then .error .looping else unwrapWithin (label :: around) t := by
  rw [unwrapWithin, if_pos (isArray_recurring.mpr h)]

theorem unwrapWithin_of_items {items : Tree} (hl : label? schema = none) (h : IsArray schema)
    (hi : schema.get? "items" = some items) :
    unwrapWithin around schema =
      unwrapWithin around items >>= fun found => .ok (found.1, found.2 + 1) := by
  fun_cases unwrapWithin around schema with
  | case1 => cases hl
  | case2 => cases hl
  | case3 _ items' _ hitems =>
    obtain rfl := Option.some.inj (hi.symm.trans hitems)
    rfl
  | case4 _ _ hnone => cases hi.symm.trans hnone
  | case5 _ hno => exact absurd h hno

theorem unwrapWithin_of_no_items (hl : label? schema = none) (h : IsArray schema)
    (hi : schema.get? "items" = none) : unwrapWithin around schema = .ok (.null, 1) := by
  fun_cases unwrapWithin around schema with
  | case1 => cases hl
  | case2 => cases hl
  | case3 _ items' _ hitems => cases hi.symm.trans hitems
  | case4 => rfl
  | case5 _ hno => exact absurd h hno

theorem unwrap_of_reference {v : Tree} (h : reference? schema = some v) :
    unwrap schema = .ok (schema, 0) :=
  unwrapWithin_of_not_isArray (not_isArray_of_reference h)

/-- Behind an array there is at least one. -/
theorem ne_zero_of_unwrapWithin (h : unwrapWithin around schema = .ok (inner, depth))
    (harray : IsArray schema) : depth ≠ 0 := by
  fun_induction unwrapWithin around schema with
  | case1 => cases h
  | case2 around label t hl _ ih => exact ih h (isArray_recurring.mp harray)
  | case3 around schema hplain items hitems _ ih =>
    obtain ⟨found, -, h⟩ := ok_of_bind h
    cases h
    exact Nat.succ_ne_zero _
  | case4 =>
    cases h
    exact Nat.one_ne_zero
  | case5 around schema hno => exact absurd harray hno

theorem eq_self_of_unwrap (h : unwrap schema = .ok (inner, 0)) : inner = schema := by
  by_cases harray : IsArray schema
  · exact absurd rfl (ne_zero_of_unwrapWithin h harray)
  · cases (unwrapWithin_of_not_isArray harray).symm.trans h
    rfl

end Arrays

section Bodies
variable {schema inner : Tree} {depth : Nat} {function role name r : Text}

theorem bodyTypeName_of_reference (h : unwrap schema = .ok (inner, depth))
    (hr : reference? inner = some (.str r)) :
    bodyTypeName schema function role =
      .ok (referenceName r ++ (List.replicate depth (Text.ofString "[]")).flatten) := by
  simp only [bodyTypeName, h, bind, Except.bind, hr]

theorem bodyTypeName_of_inline (h : unwrap schema = .ok (inner, depth))
    (hr : ∀ r, reference? inner ≠ some (.str r)) :
    bodyTypeName schema function role = .ok (DataType.inlineName function role) := by
  simp only [bodyTypeName, h, bind, Except.bind]

theorem bodyTypeName_of_itself (h : ArrayOfItself schema) :
    bodyTypeName schema function role = .error .looping := by
  rw [bodyTypeName, unwrap_eq_looping_iff.mpr h]
  rfl

theorem eq_bodyType (h : bodyTypeName schema function role = .ok name) :
    name = bodyType schema function role := by
  rw [bodyType, h]

/-- Every body has its type, unless it is an array of itself. -/
theorem bodyTypeName_eq (h : ¬ ArrayOfItself schema) :
    bodyTypeName schema function role = .ok (bodyType schema function role) := by
  obtain ⟨inner, depth, hu⟩ := exists_unwrap h
  obtain ⟨name, hname⟩ : ∃ name, bodyTypeName schema function role = .ok name := by
    by_cases hr : ∃ r, reference? inner = some (.str r)
    · obtain ⟨r, hr⟩ := hr
      exact ⟨_, bodyTypeName_of_reference hu hr⟩
    · exact ⟨_, bodyTypeName_of_inline hu fun r h => hr ⟨r, h⟩⟩
  rw [hname, eq_bodyType hname]

/-- A body that is a reference has the type of the name that it ends in. -/
theorem bodyTypeName_of_bare (function role : Text) (h : reference? schema = some (.str r)) :
    bodyTypeName schema function role = .ok (referenceName r) := by
  rw [bodyTypeName_of_reference (unwrap_of_reference h) h]
  simp

theorem bodyType_of_bare (function role : Text) (h : reference? schema = some (.str r)) :
    bodyType schema function role = referenceName r :=
  (eq_bodyType (bodyTypeName_of_bare function role h)).symm

/-- The schema that the type of the response is taken from. -/
def responseSchema (d : Document) (operation : Tree) : Traced (Option Tree) :=
  match (operation.get "responses").map? with
  | some responses => do d.firstSchema ((successes (← named responses)).map (·.2))
  | none => pure none

/-- The schema that the type of the request is taken from. -/
def requestSchema (d : Document) (operation : Tree) (parameters : List Tree) :
    Traced (Option Tree) := do
  match ← d.followObject (operation.get "requestBody") with
  | some body => jsonSchema (body.get "content")
  | none => pure (bodyParameter parameters)

theorem result_responseBody (d : Document) (function : Text) (operation : Tree) :
    (d.responseBody function operation).result =
      (d.responseSchema operation).result >>= fun chosen =>
        chosen.mapM fun schema => bodyTypeName schema function "response" := by
  unfold responseBody responseSchema
  cases (operation.get "responses").map? with
  | none => rfl
  | some responses => simp only [Traced.result_bind, Traced.result_lift, bind_assoc]

theorem result_requestBody (d : Document) (function : Text) (operation : Tree)
    (parameters : List Tree) :
    (d.requestBody function operation parameters).result =
      (d.requestSchema operation parameters).result >>= fun chosen =>
        chosen.mapM fun schema => bodyTypeName schema function "request" := by
  unfold requestBody requestSchema
  rw [Traced.result_bind, Traced.result_bind, bind_assoc]
  congr 1
  funext body
  cases body with
  | none => rfl
  | some body => simp only [Traced.result_bind, Traced.result_lift]

theorem mapM_bodyTypeName_of_ok (h : bodyTypeName schema function role = .ok name) :
    ((some schema).mapM fun s => bodyTypeName s function role) = .ok (some name) := by
  change (bodyTypeName schema function role >>= _) = _
  rw [h]
  rfl

theorem mapM_bodyTypeName_of_itself (h : ArrayOfItself schema) :
    ((some schema).mapM fun s => bodyTypeName s function role) = .error .looping := by
  change (bodyTypeName schema function role >>= _) = _
  rw [bodyTypeName_of_itself h]
  rfl

/-- The type that is found for a chosen schema. -/
theorem eq_some_of_mapM_bodyTypeName {body : Option Text}
    (h : ((some schema).mapM fun s => bodyTypeName s function role) = .ok body) :
    ∃ name, bodyTypeName schema function role = .ok name ∧ body = some name := by
  obtain ⟨name, hname, h⟩ := ok_of_bind h
  cases h
  exact ⟨name, hname, rfl⟩

theorem result_responseBody_of_schema {d : Document} {operation : Tree}
    (h : (d.responseSchema operation).result = .ok (some schema))
    (hname : bodyTypeName schema function "response" = .ok name) :
    (d.responseBody function operation).result = .ok (some name) := by
  rw [result_responseBody, h]
  exact mapM_bodyTypeName_of_ok hname

theorem result_requestBody_of_schema {d : Document} {operation : Tree} {parameters : List Tree}
    (h : (d.requestSchema operation parameters).result = .ok (some schema))
    (hname : bodyTypeName schema function "request" = .ok name) :
    (d.requestBody function operation parameters).result = .ok (some name) := by
  rw [result_requestBody, h]
  exact mapM_bodyTypeName_of_ok hname

end Bodies

section Expansion
variable {d : Document} {first schema t : Tree} {entered : List Text} {around : List Nat}
  {r : Text} {h : schema.texts ⊆ first.texts ++ d.root.texts}

theorem expand_of_target (hr : reference? schema = some (.str r)) (hm : r ∉ entered)
    (hf : (d.follow schema).result = .ok (some t))
    (ht : t.texts ⊆ first.texts ++ d.root.texts) :
    (d.expand first entered around schema h).result =
      (d.expandInline first (r :: entered) [] t ht).result := by
  rw [expand_of_reference hr hm, Traced.result_bind_attach_ok hf]

theorem expand_of_unresolved (hr : reference? schema = some (.str r)) (hm : r ∉ entered)
    (hf : (d.follow schema).result = .ok none) :
    (d.expand first entered around schema h).result = .ok .empty := by
  rw [expand_of_reference hr hm, Traced.result_bind_attach_ok hf]
  rfl

theorem expand_of_failed {e : Fault} (hr : reference? schema = some (.str r)) (hm : r ∉ entered)
    (hf : (d.follow schema).result = .error e) :
    (d.expand first entered around schema h).result = .error e := by
  rw [expand_of_reference hr hm, Traced.result_bind_attach_error hf]

/-- A schema of its own has the members that it declares. -/
theorem result_members_of_single (hr : reference? schema = none) (hl : label? schema = none)
    (hp : (schema.get "allOf").items = []) :
    (d.members schema).result = withOwn schema .empty := by
  rw [members, expand_of_inline hr, expandInline_composed (ne_recurring_of_label? hl), hp]
  rfl

/-- The outcome of an expansion that watches no reference is its result. -/
theorem result_members_of_ends {o : Except Fault Members} (h : Ends d ⟨[], schema⟩ o) :
    (d.members schema).result = o := by
  have hsound : Sound d [] ⟨[], schema⟩ (d.members schema).result :=
    sound_expand [] [] schema (List.subset_append_left _ _)
  have hr : ¬ Rejects (d.members schema).result := by
    intro hr
    exact not_ends_of_returns (hsound.returns _ [] .start (List.nil_subset _) hr) ⟨o, h⟩
  exact (hsound.ends hr).unique h

theorem ends_single {s : Site} (hf : d.form s = .composed) (hp : s.parts = []) :
    Ends d s (withOwn s.schema .empty) := by
  have h := Ends.composed (m := fun _ => .empty) hf (by simp [hp])
  rwa [hp] at h

end Expansion

end ApiScaffold.Document
