import ApiScaffold.Proofs.DataType.Mentions
import ApiScaffold.Proofs.Document.Single
import ApiScaffold.Proofs.Document.TableChoice

namespace ApiScaffold

namespace DataType
variable {policy : Name.Policy} {name base : Text} {s t : DataType} {depth : Nat}

/-- Every marker at the end of a name is an array. -/
theorem ofName_append_marker (policy : Name.Policy) (name : Text) :
    ofName policy (name ++ Text.ofString "[]") = .array (ofName policy name) := by
  have hreverse : (name ++ Text.ofString "[]").reverse =
      .char ']' :: .char '[' :: name.reverse := by
    simp [Text.ofString, Text.ofChars]
  rw [ofName, hreverse, splitMarkers]
  rfl

theorem ofName_append_markers (policy : Name.Policy) (name : Text) (depth : Nat) :
    ofName policy (name ++ (List.replicate depth (Text.ofString "[]")).flatten) =
      arrays depth (ofName policy name) := by
  induction depth with
  | zero => simp [arrays]
  | succ depth ih =>
    rw [List.replicate_succ', List.flatten_concat, ← List.append_assoc, ofName_append_marker, ih]
    rfl

theorem ofName_of_no_marker (h : ¬ Text.ofString "[]" <:+ name) :
    ofName policy name = ofBase policy name := by
  have hsplit : splitMarkers name.reverse = (name.reverse, 0) := by
    generalize hbackwards : name.reverse = backwards
    fun_cases splitMarkers backwards with
    | case1 rest base n hrest =>
      have hname : name = rest.reverse ++ Text.ofString "[]" := by
        rw [← reverse_markers, ← hbackwards, List.reverse_reverse]
      exact absurd ⟨rest.reverse, hname.symm⟩ h
    | case2 base hno => rfl
  rw [ofName, hsplit]
  exact congrArg (ofBase policy) name.reverse_reverse

theorem arrays_injective (depth : Nat) (h : arrays depth s = arrays depth t) : s = t := by
  induction depth with
  | zero => exact h
  | succ depth ih => exact ih (DataType.array.inj h)

theorem ofName_eq_reference_iff (h : policy.isEntity name = true) :
    ofName policy name = .reference name ↔ ¬ Text.ofString "[]" <:+ name := by
  constructor
  · rintro he ⟨base, rfl⟩
    rw [ofName_append_marker] at he
    cases he
  · intro hno
    rw [ofName_of_no_marker hno, ofBase, if_pos h]

end DataType

namespace Document
open DataType
variable {r function role : Text} {schema items : Tree} {around : List Nat} {depth : Nat}
  {policy : Name.Policy}

/-- A schema is a reference inside arrays, and none of them is a composition of one part. `around`
are the labels of the values that it stands in: a way that ends comes by none of them again. -/
inductive ArraysOf (r : Text) : List Nat → Tree → Nat → Prop
  | label {around : List Nat} {label : Nat} {t : Tree} {depth : Nat} (fresh : label ∉ around)
      (inner : ArraysOf r (label :: around) t depth) :
      ArraysOf r around (.recurring label t) depth
  | reference {around : List Nat} {schema : Tree} (plain : label? schema = none)
      (target : reference? schema = some (.str r)) : ArraysOf r around schema 0
  | array {around : List Nat} {schema items : Tree} {depth : Nat} (plain : label? schema = none)
      (bare : reference? schema = none) (type : (schema.get "type").str? = some ("array" : Text))
      (parts : (schema.get "allOf").items.length ≠ 1) (content : schema.get? "items" = some items)
      (inner : ArraysOf r around items depth) : ArraysOf r around schema (depth + 1)

/-- The search for the reference ends, as it comes by no label twice. -/
theorem ArraysOf.exists_unwrapWithin (h : ArraysOf r around schema depth) :
    ∃ found, unwrapWithin around schema = .ok found := by
  induction h with
  | @label around label t depth fresh _ ih =>
    by_cases harray : IsArray t
    · rwa [unwrapWithin_recurring harray, if_neg fresh]
    · exact ⟨_, unwrapWithin_of_not_isArray fun h => harray (isArray_recurring.mp h)⟩
  | reference _ target => exact ⟨_, unwrapWithin_of_not_isArray (not_isArray_of_reference target)⟩
  | array plain bare type _ content _ ih =>
    obtain ⟨found, hfound⟩ := ih
    rw [unwrapWithin_of_items plain ⟨by simp [bare], type⟩ content, hfound]
    exact ⟨_, rfl⟩

theorem Refers.recurring {label : Nat} (h : Refers r schema depth) :
    Refers r (.recurring label schema) depth := by
  cases h with
  | reference target => exact .reference target
  | array bare type content inner => exact .array bare type content inner

theorem ArraysOf.refers (h : ArraysOf r around schema depth) : Refers r schema depth := by
  induction h with
  | label _ _ ih => exact ih.recurring
  | reference _ target => exact .reference target
  | array _ bare type _ content _ ih => exact .array bare type content ih

/-- A body of such a schema has the name of the reference, with a marker for each array. -/
theorem ArraysOf.bodyTypeName_eq (h : ArraysOf r [] schema depth) (function role : Text) :
    bodyTypeName schema function role =
      .ok (referenceName r ++ (List.replicate depth (Text.ofString "[]")).flatten) := by
  obtain ⟨⟨inner, n⟩, hu⟩ := h.exists_unwrapWithin
  obtain ⟨rfl, htarget⟩ := h.refers.unwrapWithin_eq hu
  exact bodyTypeName_of_reference hu htarget

theorem typeName_of_str {name : Text} (h : (schema.get "type").str? = some name) :
    typeName schema = some name := by
  unfold typeName
  cases htype : schema.get "type" with
  | str s =>
    rw [htype] at h
    exact h
  | _ =>
    rw [htype] at h
    cases h

/-- A column of such a schema has an array for each level around the entity. -/
theorem ArraysOf.dataTypeWithin_eq (h : ArraysOf r around schema depth) :
    dataTypeWithin around schema = .ok (arrays depth (.reference (referenceName r))) := by
  induction h with
  | label fresh _ ih => rw [dataTypeWithin_recurring, if_neg fresh, ih]
  | reference plain target =>
    rw [dataTypeWithin_eq_step plain, dataTypeStep_of_reference target]
    rfl
  | @array around schema items depth plain bare type parts content _ ih =>
    have hparts : ∀ part, (schema.get "allOf").items ≠ [part] := by
      rintro part he
      exact parts (by rw [he]; rfl)
    rw [dataTypeWithin_eq_step plain, dataTypeStep_of_declared (by simp [bare]) hparts,
      declaredType, if_pos (typeName_of_str type)]
    simp only [content, ih]
    rfl

/-- A body and a column of such a schema have the same type, unless the name of the entity itself
ends in a marker: a body type is read back from its text, where every marker at the end is an
array. -/
theorem dataType_eq_ofName_bodyType_iff (h : ArraysOf r [] schema depth)
    (hentity : policy.isEntity (referenceName r) = true) (function role : Text) :
    dataType schema = .ok (arrays depth (.reference (referenceName r))) ∧
      bodyTypeName schema function role = .ok (bodyType schema function role) ∧
      ofName policy (bodyType schema function role) =
        arrays depth (ofName policy (referenceName r)) ∧
      (dataType schema = .ok (ofName policy (bodyType schema function role)) ↔
        ¬ Text.ofString "[]" <:+ referenceName r) := by
  have hcolumn : dataType schema = .ok (arrays depth (.reference (referenceName r))) :=
    h.dataTypeWithin_eq
  have hname := h.bodyTypeName_eq function role
  have hbody : ofName policy (bodyType schema function role) =
      arrays depth (ofName policy (referenceName r)) := by
    rw [← eq_bodyType hname, ofName_append_markers]
  refine ⟨hcolumn, hname.trans (congrArg _ (eq_bodyType hname)), hbody, ?_⟩
  rw [hcolumn, hbody, ← ofName_eq_reference_iff hentity, Except.ok.injEq]
  constructor
  · exact fun he => (arrays_injective depth he).symm
  · exact fun he => by rw [he]

/-- Lists of lists of an entity that say more than that. -/
def petLists : Tree :=
  .recurring 0 (.map [(.str "type", .str "array"), (.str "properties", .map []),
    (.str "allOf", .list [petReference, petReference]),
    (.str "items", .map [(.str "items", petReference), (.str "type", .str "array")])])

theorem dataType_eq_ofName_bodyType_petLists :
    ArraysOf "#/definitions/Pet" [] petLists 2 ∧ Name.Policy.standard.isEntity "Pet" = true ∧
      dataType petLists = .ok (ofName .standard (bodyType petLists "getPets" "response")) ∧
      dataType petLists = .ok (.array (.array (.reference "Pet"))) := by
  have hinner : ArraysOf "#/definitions/Pet" [0]
      (.map [(.str "items", petReference), (.str "type", .str "array")]) 1 :=
    .array rfl rfl rfl (by decide) rfl (.reference rfl rfl)
  have hlists : ArraysOf "#/definitions/Pet" [] petLists 2 :=
    .label List.not_mem_nil (.array rfl rfl rfl (by decide) rfl hinner)
  have hentity : Name.Policy.standard.isEntity (referenceName "#/definitions/Pet") = true := by
    decide
  obtain ⟨hcolumn, -, -, hsame⟩ :=
    dataType_eq_ofName_bodyType_iff hlists hentity "getPets" "response"
  exact ⟨hlists, by decide, hsame.mpr (by decide), hcolumn⟩

/-- A list that is also a composition of one part. -/
def composedList : Tree :=
  .map [(.str "type", .str "array"), (.str "items", petReference),
    (.str "allOf", .list [.map [(.str "type", .str "string")]])]

/-- A marker in the name of an entity makes an array of it where it is a body. A composition of one
part makes a column what the part is. -/
theorem dataType_ne_ofName_bodyType :
    (Refers "#/definitions/Pet[]" (referring "#/definitions/Pet[]") 0 ∧
      Name.Policy.standard.isEntity (referenceName "#/definitions/Pet[]") = true ∧
      dataType (referring "#/definitions/Pet[]") ≠
        .ok (ofName .standard (bodyType (referring "#/definitions/Pet[]") "getPets" "response"))) ∧
    Refers "#/definitions/Pet" composedList 1 ∧
      Name.Policy.standard.isEntity (referenceName "#/definitions/Pet") = true ∧
      dataType composedList ≠
        .ok (ofName .standard (bodyType composedList "getPets" "response")) := by
  have hcomposed : Refers "#/definitions/Pet" composedList 1 := .array rfl rfl rfl (.reference rfl)
  refine ⟨⟨.reference rfl, by decide, ?_⟩, hcomposed, by decide, ?_⟩
  · have hname : referenceName "#/definitions/Pet[]" =
        Text.ofString "Pet" ++ Text.ofString "[]" := by decide
    rw [dataType, dataTypeWithin_eq_step rfl, dataTypeStep_of_reference rfl, bodyType_referring,
      hname, ofName_append_marker]
    intro h
    cases h
  · have hpart : dataTypeWithin [] (.map [(.str "type", .str "string")]) = .ok .string := by
      rw [dataTypeWithin_eq_step rfl]
      rfl
    have hbare : ∀ q, reference? composedList ≠ some (.str q) := by
      intro q h
      cases h
    have hunwrap : unwrap composedList = .ok (petReference, 1) := by
      rw [unwrap, unwrapWithin_of_items rfl ⟨rfl, rfl⟩ rfl,
        unwrapWithin_of_not_isArray (not_isArray_of_reference rfl)]
      rfl
    have hname : bodyTypeName composedList "getPets" "response" =
        .ok (referenceName "#/definitions/Pet" ++ (List.replicate 1 (Text.ofString "[]")).flatten) :=
      bodyTypeName_of_reference hunwrap rfl
    rw [dataType, dataTypeWithin_eq_step rfl, dataTypeStep_of_part hbare rfl, hpart,
      ← eq_bodyType hname, ofName_append_markers]
    intro h
    cases h

end Document
end ApiScaffold
