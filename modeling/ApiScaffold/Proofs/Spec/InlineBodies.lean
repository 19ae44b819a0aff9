import ApiScaffold.Client.Hook
import ApiScaffold.Proofs.Document.BodyTypes
import ApiScaffold.Proofs.Spec.Distinct
import ApiScaffold.Sql.Schema

namespace ApiScaffold
open Text Identifier

namespace DataType
variable {function other role role' fallback fallback' : Text}

/-- The parts that a body plays in an operation. -/
def roles : List Text :=
  ["request", "response"]

theorem over_of_mem_roles (h : role ∈ roles) : Over isPart role := by
  have hall : ∀ role ∈ roles, Over isPart role := by decide
  exact hall role h

/-- A placeholder cleans up to itself, but for what no identifier holds in the name of its
function. Something is always left, and no digit stands in front. -/
theorem clean_inlineName (h : role ∈ roles) :
    clean fallback (inlineName function role) =
      "inline_" ++ function.filter (·.is isPart) ++ "_" ++ role := by
  have hfilter : (inlineName function role).filter (·.is isPart) =
      "inline_" ++ function.filter (·.is isPart) ++ "_" ++ role := by
    simp only [inlineName, List.filter_append, List.filter_eq_self.mpr (over_of_mem_roles h)]
    rfl
  rw [clean, hfilter]
  rfl

/-- The cleaned placeholder tells the part that its body plays by its last letter. -/
theorem eq_of_roles (h : role ∈ roles) (h' : role' ∈ roles) {s t : Text}
    (he : s ++ role = t ++ role') : role = role' := by
  have hends : ∀ r ∈ roles, r ≠ [] ∧ ∀ r' ∈ roles, r.getLast? = r'.getLast? → r = r' := by decide
  obtain ⟨hne, hlast⟩ := hends role h
  have hboth := congrArg List.getLast? he
  rw [List.getLast?_append_of_ne_nil _ hne,
    List.getLast?_append_of_ne_nil _ (hends role' h').1] at hboth
  exact hlast role' h' hboth

/-- Functions whose placeholders clean up alike clean up alike themselves. -/
theorem ofFunction_eq_of_clean_inlineName (h : role ∈ roles) (h' : role' ∈ roles)
    (he : clean fallback (inlineName function role) = clean fallback' (inlineName other role')) :
    role = role' ∧ ofFunction function = ofFunction other := by
  rw [clean_inlineName h, clean_inlineName h'] at he
  obtain rfl := eq_of_roles h h' he
  have hparts : function.filter (·.is isPart) = other.filter (·.is isPart) :=
    List.append_cancel_left (List.append_cancel_right (List.append_cancel_right he))
  refine ⟨rfl, ?_⟩
  rw [ofFunction, ofFunction, clean, clean, hparts]

/-- No placeholder is read as an entity, an array or a primitive type. -/
theorem ofName_inlineName (h : role ∈ roles) :
    ofName .standard (inlineName function role) = .object [] := by
  have hmarker : ¬ Text.ofString "[]" <:+ inlineName function role := by
    have hends : ∀ r ∈ roles, r ≠ [] ∧ .char ']' ∉ r.getLast? := by decide
    obtain ⟨hne, hlast⟩ := hends role h
    rintro ⟨front, he⟩
    have hboth := congrArg List.getLast? he
    rw [inlineName, List.getLast?_append_of_ne_nil _ hne,
      List.getLast?_append_of_ne_nil _ (by decide)] at hboth
    exact hlast hboth.symm
  rw [ofName_of_no_marker hmarker]
  rfl

end DataType

open DataType

namespace Endpoint
variable {f g : Endpoint}

/-- The type that decides which table is drawn on is the placeholder of a schema without a name. -/
def DrawsInline (f : Endpoint) : Prop :=
  if f.method = .get then f.responseBody = some (inlineName f.name "response")
  else f.requestBody = some (inlineName f.name "request")

theorem DrawsInline.tableName_eq (h : f.DrawsInline) :
    ∃ role ∈ roles, f.tableName = clean (ofFunction f.name) (inlineName f.name role) := by
  unfold DrawsInline at h
  unfold tableName
  split at h
  · rename_i hget
    refine ⟨"response", by decide, ?_⟩
    simp [hget, h]
  · rename_i hget
    refine ⟨"request", by decide, ?_⟩
    simp [hget, h]

theorem tableName_ne_of_drawsInline (hne : ofFunction f.name ≠ ofFunction g.name)
    (hf : f.DrawsInline) (hg : g.DrawsInline) : f.tableName ≠ g.tableName := by
  obtain ⟨role, hrole, hfname⟩ := hf.tableName_eq
  obtain ⟨role', hrole', hgname⟩ := hg.tableName_eq
  rw [hfname, hgname]
  exact fun he => hne (ofFunction_eq_of_clean_inlineName hrole hrole' he).2

/-- The endpoint without the bodies that have no named type. -/
def withoutInline (f : Endpoint) : Endpoint :=
  { f with
    requestBody := f.requestBody.filter (· ≠ inlineName f.name "request")
    responseBody := f.responseBody.filter (· ≠ inlineName f.name "response") }

/-- The entities that a body refers to. -/
def bodyEntities (policy : Name.Policy) (body : Option Text) : List Text :=
  (nonEmpty? body).toList.flatMap fun name => (ofName policy name).entities

theorem entities_clientTypes (policy : Name.Policy) (f : Endpoint) :
    (f.clientTypes policy).flatMap DataType.entities =
      (f.clientParameters.map (·.type)).flatMap DataType.entities ++
        (bodyEntities policy f.requestBody ++ bodyEntities policy f.responseBody) := by
  unfold clientTypes bodyEntities
  cases hrequest : nonEmpty? f.requestBody <;> cases hresponse : nonEmpty? f.responseBody <;>
    simp [hrequest, hresponse]

theorem bodyEntities_filter (body : Option Text) {role : Text} (h : role ∈ roles) :
    bodyEntities .standard (body.filter (· ≠ inlineName f.name role)) =
      bodyEntities .standard body := by
  cases body with
  | none => rfl
  | some name =>
    by_cases hname : name = inlineName f.name role
    · subst hname
      have hnone : bodyEntities .standard (some (inlineName f.name role)) = [] := by
        rw [bodyEntities, List.flatMap_eq_nil_iff]
        intro name hm
        obtain ⟨he, -⟩ := nonEmpty?_eq_some_iff.mp (Option.mem_toList.mp hm)
        rw [← Option.some.inj he, ofName_inlineName h]
        rfl
      rw [hnone, Option.filter_some, if_neg (by simp)]
      rfl
    · rw [Option.filter_some, if_pos (by simpa using hname)]

/-- Nothing is imported for a body that has no named type. -/
theorem typeImports_withoutInline (f : Endpoint) :
    f.withoutInline.typeImports .standard = f.typeImports .standard := by
  have hin : Text.ofString "request" ∈ roles := by decide
  have hout : Text.ofString "response" ∈ roles := by decide
  have hrequest := bodyEntities_filter (f := f) f.requestBody hin
  have hresponse := bodyEntities_filter (f := f) f.responseBody hout
  rw [typeImports, typeImports, entities_clientTypes, entities_clientTypes]
  simp only [withoutInline, hrequest, hresponse]
  rfl

end Endpoint

namespace Spec

/-- The placeholders of all bodies that the functions can have. -/
def placeholders (s : Spec) : List Text :=
  s.functions.flatMap fun f => roles.map (inlineName f.name)

/-- Where no generated names collide, no two bodies without a named type have one identifier, be
they of one function or of two. Under the standard policy they are all read as objects, so two
functions that draw on the tables of such bodies draw on different ones, and nothing is imported. -/
theorem nodup_placeholders {s : Spec} (h : s.collisions = []) :
    (∀ fallback, (s.placeholders.map (clean fallback)).Nodup) ∧
    (∀ name ∈ s.placeholders, ofName .standard name = .object []) ∧
    (s.functions.Pairwise fun f g => f.DrawsInline → g.DrawsInline → f.tableName ≠ g.tableName) ∧
    ∀ f ∈ s.functions, f.typeImports .standard = f.withoutInline.typeImports .standard := by
  have hapart : s.functions.Pairwise fun f g => ofFunction f.name ≠ ofFunction g.name :=
    List.pairwise_map.mp (s.distinct_iff.mpr h).functions
  refine ⟨fun fallback => ?_, ?_, ?_, fun f _ => f.typeImports_withoutInline.symm⟩
  · rw [placeholders, List.map_flatMap, List.nodup_flatMap]
    constructor
    · intro f _
      rw [List.map_map]
      refine List.Nodup.map_on (fun role hrole role' hrole' he => ?_) (by decide)
      exact (ofFunction_eq_of_clean_inlineName hrole hrole' he).1
    · refine hapart.imp fun {f g} hne name hf hg => ?_
      simp only [List.map_map, List.mem_map, Function.comp_apply] at hf hg
      obtain ⟨role, hrole, rfl⟩ := hf
      obtain ⟨role', hrole', he⟩ := hg
      exact hne (ofFunction_eq_of_clean_inlineName hrole' hrole he).2.symm
  · intro name hm
    obtain ⟨f, -, hm⟩ := List.mem_flatMap.mp hm
    obtain ⟨role, hrole, rfl⟩ := List.mem_map.mp hm
    exact ofName_inlineName hrole
  · exact hapart.imp fun hne => Endpoint.tableName_ne_of_drawsInline hne

/-- A function that takes a body without a named type. -/
def upload (name : Text) : Endpoint :=
  { name := name, method := .post, path := "/", parameters := [],
    requestBody := some (inlineName name "request"), responseBody := none, summary := "" }

/-- Of one name nothing is left when it is cleaned, and another begins with a digit. -/
def uploads : Spec :=
  ⟨[], [upload "名", upload "2-up", upload "up[]"]⟩

theorem drawsInline_upload (name : Text) : (upload name).DrawsInline := by
  simp [upload, Endpoint.DrawsInline]

theorem nodup_placeholders_uploads :
    uploads.collisions = [] ∧
    uploads.placeholders.map (clean "") =
      ["inline__request", "inline__response", "inline_2up_request", "inline_2up_response",
        "inline_up_request", "inline_up_response"].map Text.ofString ∧
    (uploads.placeholders.map (clean "")).Nodup ∧
    (uploads.functions.map (·.tableName)).Nodup := by
  have hnone : uploads.collisions = [] := by decide +kernel
  obtain ⟨hnodup, -, htables, -⟩ := nodup_placeholders hnone
  have hdraws : ∀ f ∈ uploads.functions, f.DrawsInline := by
    simp [uploads, drawsInline_upload]
  refine ⟨hnone, by decide +kernel, hnodup "", List.pairwise_map.mpr ?_⟩
  exact htables.imp_of_mem fun hf hg hne => hne (hdraws _ hf) (hdraws _ hg)

end Spec
end ApiScaffold
