import ApiScaffold.Proofs.Assoc.Keys
import ApiScaffold.Proofs.Document.Chains
import ApiScaffold.Proofs.Document.Progress

namespace ApiScaffold.Document
open ApiScaffold.Tree

/-- The inline schemas that the members of a schema come from, in the order in which they are
written: a schema stands behind the parts that it is composed of. A chain of references is gone to
its end, and what is no object has no members. -/
inductive Flattens (d : Document) : Tree → List Tree → Prop
  | broken {t : Tree} (ht : d.Broken t) : Flattens d t []
  | link {t u : Tree} {inlines : List Tree} (ht : d.Link t u) (h : Flattens d u inlines) :
      Flattens d t inlines
  | scalar {t : Tree} (hr : reference? t = none) (hm : t.map? = none) : Flattens d t []
  | inline {t : Tree} (each : Tree → List Tree) (hr : reference? t = none)
      (hm : t.map?.isSome = true) (h : ∀ p ∈ (t.get "allOf").items, Flattens d p (each p)) :
      Flattens d t ((t.get "allOf").items.flatMap each ++ [t.plain])

/-- The properties that a schema declares itself, under their names. -/
def declared (t : Tree) : List (Text × Tree) :=
  ((t.get "properties").map?.getD []).map fun e => (e.1.name, e.2)

def requiredNames (t : Tree) : List Text :=
  (t.get "required").items.map (·.name)

/-- What schemas declare, written one after the other. -/
def flat (inlines : List Tree) : Members :=
  ⟨Assoc.ofList (inlines.flatMap declared), inlines.flatMap requiredNames⟩

section Relation
variable {d : Document} {t : Tree} {inlines more : List Tree}

theorem Flattens.unique (h : Flattens d t inlines) (h' : Flattens d t more) : inlines = more := by
  induction h generalizing more with
  | broken ht =>
    cases h' with
    | broken => rfl
    | link hl => exact absurd hl ht.not_link
    | scalar => rfl
    | inline _ hr => exact absurd ht (not_broken_of_none hr)
  | link ht _ ih =>
    cases h' with
    | broken hb => exact absurd ht hb.not_link
    | link ht' h' => exact ih (ht.unique ht' ▸ h')
    | scalar hr => exact absurd ht (not_link_of_none hr)
    | inline _ hr => exact absurd ht (not_link_of_none hr)
  | scalar hr hm =>
    cases h' with
    | broken => rfl
    | link ht => exact absurd ht (not_link_of_none hr)
    | scalar => rfl
    | inline _ _ hm' => simp [hm] at hm'
  | @inline t each hr hm _ ih =>
    cases h' with
    | broken hb => exact absurd hb (not_broken_of_none hr)
    | link ht => exact absurd ht (not_link_of_none hr)
    | scalar _ hm' => simp [hm'] at hm
    | @inline _ each' _ _ h' =>
      have heach : (t.get "allOf").items.flatMap each = (t.get "allOf").items.flatMap each' :=
        List.flatMap_congr fun p hp => ih p hp (h' p hp)
      rw [heach]

/-- A label changes nothing about a schema. -/
theorem Flattens.label (h : Flattens d t inlines) (hr : reference? t = none) (label : Nat) :
    Flattens d (.recurring label t) inlines := by
  cases h with
  | broken hb => exact absurd hb (not_broken_of_none hr)
  | link ht => exact absurd ht (not_link_of_none hr)
  | scalar _ hm => exact .scalar hr hm
  | inline each _ hm h => exact .inline (t := .recurring label t) each hr hm h

end Relation

section Members
variable {t : Tree} {m : Members} {inlines more : List Tree}

theorem declared_plain (t : Tree) : declared t.plain = declared t := by
  induction t using Tree.plain.induct with
  | case1 label t ih => exact ih
  | case2 t ht => rw [plain_eq_self ht]

theorem requiredNames_plain (t : Tree) : requiredNames t.plain = requiredNames t := by
  induction t using Tree.plain.induct with
  | case1 label t ih => exact ih
  | case2 t ht => rw [plain_eq_self ht]

theorem eq_name_of_nameOf {n : Text} (h : nameOf t = .ok n) : n = t.name := by
  cases hw : t.isWritable with
  | true => exact Except.ok.inj (h.symm.trans (by rw [nameOf, name?, if_pos hw]))
  | false => simp [nameOf, name?, hw] at h

theorem own_eq_flat (h : Members.own t = .ok m) : m = flat [t] := by
  obtain ⟨properties, hproperties, h⟩ := ok_of_bind h
  obtain ⟨required, hrequired, h⟩ := ok_of_bind h
  obtain ⟨names, hnames, hproperties⟩ := ok_of_bind hproperties
  cases h
  cases hproperties
  have hdeclared : names = declared t := by
    refine eq_map_of_mapM hnames ?_
    intro e b hb
    obtain ⟨name, hname, hb⟩ := ok_of_bind hb
    cases hb
    rw [eq_name_of_nameOf hname]
  have hrequires : required = requiredNames t :=
    eq_map_of_mapM hrequired fun item n hn => eq_name_of_nameOf hn
  simp [flat, hdeclared, hrequires]

/-- Joining what was joined before is one pass over all schemas. -/
theorem flat_append (inlines more : List Tree) :
    flat (inlines ++ more) = (flat inlines).join (flat more) := by
  have hkeys : Assoc.keys ([] : Assoc Tree) |>.Nodup := List.nodup_nil
  simp only [flat, Members.join, List.flatMap_append, Members.mk.injEq, and_true]
  rw [Assoc.ofList, Assoc.ofList, Assoc.ofList, Assoc.putAll_putAll hkeys]
  exact List.foldl_append

theorem foldl_join_flat (inlines : List Tree) {parts : List Tree} {each : Tree → Members}
    {lists : Tree → List Tree} (h : ∀ p ∈ parts, each p = flat (lists p)) :
    (parts.map each).foldl Members.join (flat inlines) =
      flat (inlines ++ parts.flatMap lists) := by
  induction parts generalizing inlines with
  | nil => simp
  | cons p rest ih =>
    rw [List.map_cons, List.foldl_cons, h p List.mem_cons_self, ← flat_append,
      ih _ fun p hp => h p (List.mem_cons_of_mem _ hp), List.flatMap_cons, List.append_assoc]

end Members

section Expansion
variable {d : Document} {s : Site} {r : Text} {t : Tree} {m : Members} {inlines : List Tree}

theorem broken_of_form (h : d.form s = .nothing) : d.Broken s.schema := by
  cases hasForm h with
  | nothing hr hv => exact ⟨_, hr, fun q hq => target?_eq_none (hv q hq)⟩

/-- Nothing is behind a reference to null, and null has no members either. -/
theorem Flattens.of_target (h : Flattens d t inlines) (hf : d.form s = .target r t) :
    Flattens d s.schema inlines := by
  cases hasForm hf with
  | target hr hl =>
    by_cases hnull : t = .null
    · subst hnull
      obtain rfl : inlines = [] := h.unique (.scalar rfl rfl)
      refine .broken ⟨_, hr, ?_⟩
      rintro q ⟨⟩
      exact target?_null hl
    · exact .link ⟨r, hr, target?_eq_some hl hnull⟩ h

theorem Flattens.of_inside {label : Nat} (h : Flattens d t inlines)
    (hf : d.form s = .inside label t) : Flattens d s.schema inlines := by
  cases hasForm hf with
  | inside hr hs =>
    rw [hs] at hr ⊢
    exact h.label hr label

/-- By induction on the expansion: merging what the parts were merged to is one pass over the
schemas that the parts flatten to. -/
theorem exists_flattens_of_ends (h : Ends d s (.ok m)) :
    ∃ inlines, Flattens d s.schema inlines ∧ m = flat inlines := by
  generalize ho : Except.ok m = o at h
  induction h generalizing m with
  | nothing hf =>
    cases ho
    exact ⟨[], .broken (broken_of_form hf), rfl⟩
  | @target s r t o hf _ ih =>
    obtain ⟨inlines, hflat, rfl⟩ := ih ho
    exact ⟨inlines, hflat.of_target hf, rfl⟩
  | again => cases ho
  | @inside s label t o hf _ ih =>
    obtain ⟨inlines, hflat, rfl⟩ := ih ho
    exact ⟨inlines, hflat.of_inside hf, rfl⟩
  | @composed s each hf _ ih =>
    have hr : reference? s.schema = none := by
      cases hasForm hf with
      | composed hr => exact hr
    choose! lists hlists heach using fun p hp => ih p hp rfl
    obtain ⟨own, hown, ho⟩ := ok_of_bind ho.symm
    cases ho
    have hjoined := foldl_join_flat [] heach
    have hempty : Members.empty = flat [] := rfl
    rw [own_eq_flat hown, hempty, hjoined, List.nil_append]
    cases hm : s.schema.map? with
    | none =>
      have hget (name : Text) : s.schema.get name = .null := by
        rw [Tree.get, get?, hm]
        rfl
      refine ⟨[], .scalar hr hm, ?_⟩
      rw [Site.parts, hget, ← flat_append]
      simp [flat, declared, requiredNames, hget, Tree.items, Tree.list?, Tree.map?, Tree.plain]
    | some entries =>
      refine ⟨_, .inline lists hr (by simp [hm]) hlists, ?_⟩
      rw [flat_append]
      congr 1
      simp [flat, declared_plain, requiredNames_plain]
  | failed => cases ho

end Expansion

/-- The column of a property among the schemas that it was found in. -/
structure IsColumn (policy : Name.Policy) (inlines : List Tree) (e : Text × Tree) (c : Column) :
    Prop where
  name : c.name = e.1
  type : dataType e.2 = .ok c.type
  nullable : c.nullable = true ↔ ∀ s ∈ inlines, e.1 ∉ requiredNames s
  primaryKey : c.primaryKey = policy.isPrimaryKey e.1

section Columns
variable {policy : Name.Policy} {d : Document} {inlines : List Tree}

theorem mem_required_flat {n : Text} :
    n ∈ (flat inlines).required ↔ ∃ s ∈ inlines, n ∈ requiredNames s :=
  List.mem_flatMap

theorem isColumn_of_column {e : Text × Tree} {c : Column}
    (h : column policy (flat inlines).required e.1 e.2 = .ok c) : IsColumn policy inlines e c := by
  obtain ⟨type, htype, h⟩ := ok_of_bind h
  cases h
  refine ⟨rfl, htype, ?_, rfl⟩
  simp only [decide_eq_true_eq, mem_required_flat, not_exists, not_and]

theorem flattens_iff {t : Tree} {l : List Tree} (h : Flattens d t inlines) :
    Flattens d t l ↔ l = inlines :=
  ⟨fun hl => hl.unique h, fun hl => hl ▸ h⟩

theorem exists_flattens_of_expand {first schema : Tree} {entered : List Text} {around : List Nat}
    {h : schema.texts ⊆ first.texts ++ d.root.texts} {m : Members}
    (hm : (d.expand first entered around schema h).result = .ok m) :
    ∃ inlines, Flattens d schema inlines ∧ m = flat inlines :=
  exists_flattens_of_ends ((sound_expand entered around schema h).ends_of_eq hm not_rejects_ok)

/-- An expansion, wherever it starts, gives what one pass over the flattened schemas writes: a
property keeps the place where it was first declared and has the type that it was given last, and
whatever one of the schemas requires is required. The columns of a table are these properties in
this order. -/
theorem expansion_eq_onePass (d : Document) :
    (∀ (first : Tree) (entered : List Text) (around : List Nat) (schema : Tree)
        (h : schema.texts ⊆ first.texts ++ d.root.texts) (m : Members),
      (d.expand first entered around schema h).result = .ok m →
        ∃ inlines, (∀ l, Flattens d schema l ↔ l = inlines) ∧
          m.properties = Assoc.ofList (inlines.flatMap declared) ∧
          ∀ n, n ∈ m.required ↔ ∃ s ∈ inlines, n ∈ requiredNames s) ∧
    ∀ (policy : Name.Policy) (name : Text) (schema : Tree) (t : Table),
      (d.table policy name schema).result = .ok t →
        ∃ inlines, (∀ l, Flattens d schema l ↔ l = inlines) ∧ t.name = name ∧
          List.Forall₂ (IsColumn policy inlines) (Assoc.ofList (inlines.flatMap declared))
            t.columns := by
  refine ⟨?_, ?_⟩
  · intro first entered around schema h m hm
    obtain ⟨inlines, hflat, rfl⟩ := exists_flattens_of_expand hm
    exact ⟨inlines, fun l => flattens_iff hflat, rfl, fun n => mem_required_flat⟩
  · intro policy name schema t ht
    obtain ⟨m, hm, ht⟩ := Traced.ok_of_bind ht
    obtain ⟨columns, hcolumns, ht⟩ := Traced.ok_of_bind ht
    cases ht
    obtain ⟨inlines, hflat, rfl⟩ := exists_flattens_of_expand hm
    refine ⟨inlines, fun l => flattens_iff hflat, rfl, ?_⟩
    exact (mapM_eq_ok_iff_forall₂.mp hcolumns).imp fun e c hc => isColumn_of_column hc

end Columns

section Examples

def namedThing : Tree :=
  .map [(.str "properties", .map [(.str "id", .map []), (.str "name", .map [])]),
    (.str "required", .list [.str "id"])]

def aliasOfNamed : Tree :=
  .map [(.str "$ref", .str "#/definitions/Named")]

/-- Says again what a name is. -/
def taggedThing : Tree :=
  .map [(.str "properties", .map [(.str "tag", .map []),
    (.str "name", .map [(.str "type", .str "string")])])]

/-- A named thing with a tag, which has to be there. -/
def namedAndTagged : Tree :=
  .map [(.str "allOf", .list [aliasOfNamed, taggedThing]), (.str "required", .list [.str "tag"])]

def namedThings : Document :=
  ⟨.map [(.str "definitions", .map [(.str "Named", namedThing), (.str "Pet", namedAndTagged)])]⟩

def petMembers : Members :=
  ⟨[("id", .map []), ("name", .map [(.str "type", .str "string")]), ("tag", .map [])],
    ["id", "tag"]⟩

theorem result_members_pet : (namedThings.members namedAndTagged).result = .ok petMembers := by
  have hnamed : Ends namedThings ⟨[], namedThing⟩ (withOwn namedThing .empty) := ends_single rfl rfl
  have halias : Ends namedThings ⟨[], aliasOfNamed⟩ (withOwn namedThing .empty) :=
    .target (r := "#/definitions/Named") rfl hnamed
  have htagged : Ends namedThings ⟨[], taggedThing⟩ (withOwn taggedThing .empty) :=
    ends_single rfl rfl
  have hpet : Ends namedThings ⟨[], namedAndTagged⟩ _ :=
    .composed (m := fun t => flat [if t.has "$ref" then namedThing else t]) rfl (by
      intro t ht
      rcases List.mem_cons.mp ht with rfl | ht
      · exact halias
      · obtain rfl := List.mem_singleton.mp ht
        exact htagged)
  rw [result_members_of_ends hpet]
  rfl

theorem dataType_string : dataType (.map [(.str "type", .str "string")]) =
    .ok (.primitive "string" none) := by
  rw [dataType, dataTypeWithin_eq_step rfl]
  rfl

def petColumns : List Column :=
  [⟨"id", .unknown, false, true⟩, ⟨"name", .primitive "string" none, true, false⟩,
    ⟨"tag", .unknown, false, false⟩]

theorem columns_pet : columns .standard petMembers = .ok petColumns := by
  simp only [columns, petMembers, List.mapM_cons, List.mapM_nil, column, dataType_empty,
    dataType_string]
  rfl

theorem flattens_pet :
    Flattens namedThings namedAndTagged [namedThing, taggedThing, namedAndTagged] := by
  have hsingle {t : Tree} (hr : reference? t = none) (hm : t.map?.isSome = true)
      (hp : (t.get "allOf").items = []) : Flattens namedThings t [t.plain] := by
    have h : Flattens namedThings t ((t.get "allOf").items.flatMap (fun _ => []) ++ [t.plain]) :=
      .inline _ hr hm (by simp [hp])
    rwa [hp] at h
  have halias : Flattens namedThings aliasOfNamed [namedThing] :=
    .link ⟨"#/definitions/Named", rfl, rfl⟩ (hsingle rfl rfl rfl)
  have htagged : Flattens namedThings taggedThing [taggedThing] := hsingle rfl rfl rfl
  refine .inline (fun t => [if t.has "$ref" then namedThing else t]) rfl rfl ?_
  intro t ht
  rcases List.mem_cons.mp ht with rfl | ht
  · exact halias
  · obtain rfl := List.mem_singleton.mp ht
    exact htagged

/-- The name stands where the named thing has it and has the type of the tagged one. -/
theorem expansion_eq_onePass_pet :
    (namedThings.table .standard "Pet" namedAndTagged).result = .ok ⟨"Pet", petColumns⟩ ∧
      List.Forall₂ (IsColumn .standard [namedThing, taggedThing, namedAndTagged])
        (Assoc.ofList ([namedThing, taggedThing, namedAndTagged].flatMap declared))
        petColumns := by
  have htable : (namedThings.table .standard "Pet" namedAndTagged).result =
      .ok ⟨"Pet", petColumns⟩ :=
    result_table_of_members result_members_pet columns_pet
  obtain ⟨inlines, hflat, -, hcolumns⟩ := (expansion_eq_onePass namedThings).2 _ _ _ _ htable
  rw [← (hflat _).mp flattens_pet] at hcolumns
  exact ⟨htable, hcolumns⟩

end Examples

end ApiScaffold.Document
