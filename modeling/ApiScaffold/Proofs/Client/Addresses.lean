import ApiScaffold.Proofs.Client.Expressions
import ApiScaffold.Proofs.Client.Placeholders
import ApiScaffold.Proofs.Client.Templates

namespace ApiScaffold
open Text Client

namespace Client

section Gathering
variable {text code pending : Text} {xs ys : List Part}

/-- Where parts are continued, only the last of their texts can grow. -/
theorem Part.gather_append (pending : Text) (xs : List Part) :
    ∃ before last, gather pending xs = before ++ [.text last] ∧
      ∀ ys, gather pending (xs ++ ys) = before ++ gather last ys := by
  induction xs generalizing pending with
  | nil => exact ⟨[], pending, rfl, fun _ => rfl⟩
  | cons x xs ih =>
    cases x with
    | text s => exact ih (pending ++ s)
    | expression code =>
      obtain ⟨before, last, hxs, happend⟩ := ih []
      refine ⟨.text pending :: .expression code :: before, last, ?_, fun ys => ?_⟩
      · rw [gather, hxs]
        rfl
      · rw [List.cons_append, gather, happend]
        rfl

/-- A text in front of the parts stands in front of the first of them. -/
theorem Part.gather_pending (ys : List Part) :
    ∃ first after, ∀ pending, gather pending ys = .text (pending ++ first) :: after := by
  induction ys with
  | nil => exact ⟨[], [], fun pending => by rw [gather, List.append_nil]⟩
  | cons y ys ih =>
    cases y with
    | text s =>
      obtain ⟨first, after, h⟩ := ih
      exact ⟨s ++ first, after, fun pending => by rw [gather, h, List.append_assoc]⟩
    | expression code =>
      exact ⟨[], .expression code :: gather [] ys, fun pending => by rw [gather, List.append_nil]⟩

theorem Part.gather_append_expression (pending code : Text) (xs ys : List Part) :
    gather pending (xs ++ .expression code :: ys) =
      gather pending xs ++ .expression code :: gather [] ys := by
  obtain ⟨before, last, hxs, happend⟩ := gather_append pending xs
  rw [happend, hxs, gather]
  simp

theorem Part.gather_append_text (text : Text) (xs ys : List Part) :
    ∃ before last first after, gather [] xs = before ++ [.text last] ∧
      gather [] ys = .text first :: after ∧
      gather [] (xs ++ .text text :: ys) = before ++ .text (last ++ text ++ first) :: after := by
  obtain ⟨before, last, hxs, happend⟩ := gather_append [] xs
  obtain ⟨first, after, hys⟩ := gather_pending ys
  exact ⟨before, last, first, after, hxs, hys [], by rw [happend, gather, hys]⟩

theorem Part.expression_mem_gather :
    .expression code ∈ gather pending xs ↔ .expression code ∈ xs := by
  induction xs generalizing pending with
  | nil => simp [gather]
  | cons x xs ih => cases x <;> simp [gather, ih]

end Gathering

section Spelling
variable {xs ys : List Part} {s t name code : Text}

/-- The expression that fills in a parameter of the path. -/
def encoded (name : Text) : Text :=
  "encodeURIComponent(" ++ member "params" name ++ ")"

theorem encoded_injective {name other : Text} (h : encoded name = encoded other) : name = other :=
  member_injective (List.append_cancel_left (List.append_cancel_right h))

theorem closing_not_mem_encoded (h : .char '}' ∉ name) : .char '}' ∉ encoded name := by
  have hliteral : .char '}' ∉ literal name := by
    apply not_mem_literal (by decide)
    intro c hc hm
    unfold escapeChar at hm
    split at hm
    case h_7 => exact h (List.mem_singleton.mp hm ▸ hc)
    all_goals exact absurd hm (by decide)
  unfold encoded member
  split <;> simp [h, hliteral, ofString, ofChars]

/-- The path that parts are an address for: texts as they are, and for every other part the
placeholder that it fills in. -/
inductive Spells : List Part → Text → Prop
  | nil : Spells [] []
  | text {xs : List Part} {t : Text} (s : Text) (h : Spells xs t) : Spells (.text s :: xs) (s ++ t)
  | filled {xs : List Part} {t : Text} (name : Text) (h : Spells xs t) :
      Spells (.expression (encoded name) :: xs) (braced name ++ t)

theorem Spells.unique (hs : Spells xs s) (ht : Spells xs t) : s = t := by
  induction hs generalizing t with
  | nil =>
    cases ht
    rfl
  | text s _ ih =>
    cases ht with
    | text _ h => rw [ih h]
  | @filled xs s name hs ih =>
    generalize hcode : encoded name = code at ht
    cases ht with
    | filled other h => rw [ih h, encoded_injective hcode]

theorem Spells.append (hs : Spells xs s) (ht : Spells ys t) : Spells (xs ++ ys) (s ++ t) := by
  induction hs with
  | nil => exact ht
  | text s _ ih =>
    rw [List.append_assoc]
    exact .text s ih
  | filled name _ ih =>
    rw [List.append_assoc]
    exact .filled name ih

theorem Spells.gather (h : Spells xs t) (pending : Text) :
    Spells (Part.gather pending xs) (pending ++ t) := by
  induction h generalizing pending with
  | nil => exact .text pending .nil
  | text s _ ih =>
    rw [← List.append_assoc]
    exact ih (pending ++ s)
  | filled name _ ih => exact .text pending (.filled name (ih []))

end Spelling

end Client

namespace Endpoint
variable {f : Endpoint} {name before after : Text}

/-- Whether a placeholder is declared as a parameter of the path. -/
def fills (f : Endpoint) (name : Text) : Bool :=
  f.pathParameters.any (·.name == name)

theorem fills_iff : f.fills name = true ↔ name ∈ f.pathParameters.map (·.name) := by
  simp [fills]

/-- The parts of an address that a segment is written as. -/
def partsOf (f : Endpoint) (s : Segment) : List Part :=
  .text s.text ::
    match s.placeholder with
    | none => []
    | some name =>
      if f.fills name then [.expression (encoded name)] else [.text (braced name)]

/-- The pieces of the address without its query. -/
def addressed (f : Endpoint) : List Part :=
  Part.gather [] ((Client.segments f.path).flatMap f.partsOf)

theorem map_part_url (f : Endpoint) (withQuery : Bool) :
    (f.url withQuery).map UrlPart.part =
      (Client.segments f.path).flatMap f.partsOf ++
        if withQuery then [.expression "query ? '?' + query : ''"] else [] := by
  rw [url, List.map_append, List.map_flatMap]
  congr 1
  · refine List.flatMap_congr fun s _ => ?_
    obtain ⟨text, placeholder⟩ := s
    cases placeholder with
    | none => rfl
    | some name =>
      have hfills : f.pathParameters.any (·.name == name) = f.fills name := rfl
      simp only [partsOf, hfills]
      cases f.fills name <;> rfl
  · cases withQuery <;> rfl

theorem spells_partsOf (s : Segment) : Spells (f.partsOf s) s.spelling := by
  obtain ⟨text, placeholder⟩ := s
  refine .text text ?_
  cases placeholder with
  | none => exact .nil
  | some name =>
    cases h : f.fills name with
    | true => simpa [h] using Spells.filled name .nil
    | false => simpa [h] using Spells.text (braced name) .nil

theorem spells_segments (segments : List Segment) :
    Spells (segments.flatMap f.partsOf) (segments.flatMap Segment.spelling) := by
  induction segments with
  | nil => exact .nil
  | cons s segments ih => exact (spells_partsOf s).append ih

theorem spells_addressed (f : Endpoint) : Spells f.addressed f.path := by
  have h := (spells_segments (f := f) (Client.segments f.path)).gather []
  rwa [Client.segments, Segment.flatMap_spelling_cut] at h

theorem expression_mem_addressed {code : Text} :
    .expression code ∈ f.addressed ↔
      ∃ s ∈ Client.segments f.path, ∃ name, s.placeholder = some name ∧ f.fills name ∧
        code = encoded name := by
  rw [addressed, Part.expression_mem_gather, List.mem_flatMap]
  refine exists_congr fun s => and_congr_right fun _ => ?_
  obtain ⟨text, placeholder⟩ := s
  cases placeholder with
  | none => simp [partsOf]
  | some name => cases h : f.fills name <;> simp [partsOf, h]

/-- The segments around a placeholder of the path. -/
theorem segments_of_path (h : IsPlaceholder name)
    (hpath : f.path = before ++ (braced name ++ after)) :
    ∃ xs t ys, Client.segments f.path = xs ++ ⟨t, some name⟩ :: ys ∧
      Spells (xs.flatMap f.partsOf ++ [.text t]) before ∧ Spells (ys.flatMap f.partsOf) after := by
  obtain ⟨xs, t, hcut, hbefore⟩ := Segment.cut_append_braced h [] before after
  refine ⟨xs, t, Segment.cut [] after, by rw [hpath]; exact hcut, ?_, ?_⟩
  · have htext : Spells (xs.flatMap f.partsOf ++ [.text t])
        (xs.flatMap Segment.spelling ++ (t ++ [])) :=
      (spells_segments xs).append (.text t .nil)
    rwa [List.append_nil, hbefore] at htext
  · have hafter := spells_segments (f := f) (Segment.cut [] after)
    rwa [Segment.flatMap_spelling_cut] at hafter

/-- The pieces of an address that stand for a path. An expression fills in a placeholder wherever
its name is declared, and all other placeholders are left in the texts. -/
structure IsAddress (f : Endpoint) (parts : List Part) : Prop where
  spells_iff : ∀ t, Spells parts t ↔ t = f.path
  filled_iff : ∀ before name after,
    (∃ xs ys, parts = xs ++ .expression (encoded name) :: ys ∧ Spells xs before ∧ Spells ys after) ↔
      f.path = before ++ (braced name ++ after) ∧ IsPlaceholder name ∧
        name ∈ f.pathParameters.map (·.name)
  kept : ∀ before name after, f.path = before ++ (braced name ++ after) → IsPlaceholder name →
    name ∉ f.pathParameters.map (·.name) →
      ∃ xs s t ys, parts = xs ++ .text (s ++ braced name ++ t) :: ys ∧
        Spells (xs ++ [.text s]) before ∧ Spells (.text t :: ys) after

theorem isAddress_addressed (f : Endpoint) : f.IsAddress f.addressed where
  spells_iff t := ⟨fun h => h.unique f.spells_addressed, fun h => h ▸ f.spells_addressed⟩
  filled_iff before name after := by
    constructor
    · rintro ⟨xs, ys, hparts, hxs, hys⟩
      have hpath : Spells f.addressed (before ++ (braced name ++ after)) :=
        hparts ▸ hxs.append (.filled name hys)
      have hmem : .expression (encoded name) ∈ f.addressed := by
        rw [hparts]
        exact List.mem_append_right _ List.mem_cons_self
      obtain ⟨s, hs, other, hplaceholder, hfills, hcode⟩ := expression_mem_addressed.mp hmem
      obtain rfl := encoded_injective hcode
      exact ⟨f.spells_addressed.unique hpath, Segment.isPlaceholder_of_mem_cut hs hplaceholder,
        fills_iff.mp hfills⟩
    · rintro ⟨hpath, hplaceholder, hdeclared⟩
      obtain ⟨xs, t, ys, hsegments, hbefore, hafter⟩ := segments_of_path hplaceholder hpath
      refine ⟨Part.gather [] (xs.flatMap f.partsOf ++ [.text t]),
        Part.gather [] (ys.flatMap f.partsOf), ?_, hbefore.gather [], hafter.gather []⟩
      rw [addressed, hsegments, ← Part.gather_append_expression]
      simp [partsOf, fills_iff.mpr hdeclared]
  kept before name after hpath hplaceholder hdeclared := by
    obtain ⟨xs, t, ys, hsegments, hbefore, hafter⟩ := segments_of_path hplaceholder hpath
    obtain ⟨front, last, first, back, hfront, hback, hparts⟩ := Part.gather_append_text
      (braced name) (xs.flatMap f.partsOf ++ [.text t]) (ys.flatMap f.partsOf)
    refine ⟨front, last, first, back, ?_, hfront ▸ hbefore.gather [], hback ▸ hafter.gather []⟩
    have hfills : f.fills name = false := by
      simpa using fun h => hdeclared (fills_iff.mp h)
    rw [addressed, hsegments, ← hparts]
    simp [partsOf, hfills]

/-- No expression of an address holds the brace that ends it. -/
theorem closing_not_mem_of_mem_url {withQuery : Bool} {code : Text}
    (h : .expression code ∈ (f.url withQuery).map UrlPart.part) : .char '}' ∉ code := by
  rw [map_part_url] at h
  rcases List.mem_append.mp h with h | h
  · obtain ⟨s, hs, name, hplaceholder, -, rfl⟩ :=
      expression_mem_addressed.mp (Part.expression_mem_gather.mpr h)
    exact closing_not_mem_encoded (Segment.isPlaceholder_of_mem_cut hs hplaceholder).noClosing
  · cases withQuery with
    | true =>
      obtain rfl := Part.expression.inj (List.mem_singleton.mp h)
      decide
    | false => cases h

/-- An address is a template literal that is read back to its end. Its pieces stand for the path,
and the query follows them in an expression of its own. -/
theorem readTemplate_url (f : Endpoint) (withQuery : Bool) :
    ∃ parts, f.IsAddress parts ∧
      Part.readTemplate (template ((f.url withQuery).map UrlPart.part)) =
        some (parts ++
          if withQuery then [.expression "query ? '?' + query : ''", .text []] else [], []) := by
  refine ⟨f.addressed, f.isAddress_addressed, ?_⟩
  rw [Part.readTemplate_template fun _ h => closing_not_mem_of_mem_url h, map_part_url]
  cases withQuery with
  | true => simp [addressed, Part.gather_append_expression, Part.gather]
  | false => simp [addressed]

end Endpoint
end ApiScaffold
