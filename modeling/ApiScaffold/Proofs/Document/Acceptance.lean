import ApiScaffold.Proofs.Document.Progress
import ApiScaffold.Proofs.Document.Single

namespace ApiScaffold.Document
open ApiScaffold.Tree Relation

/-- A value without a label, whose keys and required names can be written. A number of too many
digits cannot. -/
structure Legible (t : Tree) : Prop where
  label : label? t = none
  key : ∀ entries, t.map? = some entries → ∀ e ∈ entries, e.1.isWritable = true
  required : ∀ item ∈ (t.get "required").items, item.isWritable = true

instance : DecidablePred Legible := fun t =>
  decidable_of_iff (label? t = none ∧ (∀ entries ∈ t.map?, ∀ e ∈ entries, e.1.isWritable = true) ∧
      ∀ item ∈ (t.get "required").items, item.isWritable = true)
    ⟨fun h => ⟨h.1, h.2.1, h.2.2⟩, fun h => ⟨h.label, h.key, h.required⟩⟩

/-- A document that its shape, its references and its names give no reason to reject. Whatever
else stands in it is free. -/
structure Acceptable (policy : Name.Policy) (root : Tree) : Prop where
  isObject : root.map?.isSome = true
  paths : (pathItems ⟨root⟩).isSome = true
  chains : ∀ r, ¬ TransGen (LeadsTo ⟨root⟩) r r
  expansions : ∀ e ∈ entitySchemas ⟨root⟩, ¬ Returns ⟨root⟩ (fun _ => True) ⟨[], e.2⟩
  collisions : ∀ (s : Spec) items, (tables policy ⟨root⟩ (entitySchemas ⟨root⟩)).result = .ok s.tables →
    pathItems ⟨root⟩ = some items → (endpoints ⟨root⟩ items).result = .ok s.functions →
    s.collisions = []

variable {policy : Name.Policy} {root t : Tree} {p : Fault → Prop}

theorem nameOf_of_isWritable (h : t.isWritable = true) : nameOf t = .ok t.name := by
  rw [nameOf, name?, if_pos h]

theorem nameOf_of_not_isWritable (h : t.isWritable = false) : nameOf t = .error .numberTooLong := by
  rw [nameOf, name?, h]
  rfl

/-- Inside of a value without labels there is no array of itself. -/
theorem not_arrayOfItself_of_legible (h : Throughout Legible t) : ¬ ArrayOfItself t := by
  rintro ⟨label, s, hreach, -, -⟩
  have hlabel := (h _ (within_of_inward hreach)).label
  cases hlabel

theorem Throughout.spares_of_legible (h : Throughout Legible t) : Throughout (Spares p) t := by
  have hname {s : Tree} (hs : s.isWritable = true) : FailsBy p (nameOf s) := by
    rw [nameOf_of_isWritable hs]
    exact failsBy_ok _
  intro s hs
  have hlegible := h s hs
  exact ⟨.inr hlegible.label, .inr (not_arrayOfItself_of_legible (h.within hs)),
    fun hm e he => hname (hlegible.key _ hm e he),
    fun item hi => hname (hlegible.required item hi)⟩

/-- Only what cannot be read as a name, or stands in itself, stops the reading. -/
theorem Acceptable.failsBy (h : Acceptable policy root) (hroot : Throughout (Spares p) root) :
    FailsBy p (spec policy root).result := by
  obtain ⟨items, hitems⟩ := Option.isSome_iff_exists.mp h.paths
  have hobject : ¬ root.map?.isNone = true := by
    rw [Option.isNone_iff_eq_none, ← ne_eq, ← Option.isSome_iff_ne_none]
    exact h.isObject
  have hmembers : ∀ e ∈ entitySchemas ⟨root⟩, ∀ f,
      (members ⟨root⟩ e.2).result = .error f → f.isRejection → p f := by
    intro e he f hf hreject
    have hsound : Sound ⟨root⟩ [] ⟨[], e.2⟩ (members ⟨root⟩ e.2).result :=
      sound_expand [] [] e.2 (List.subset_append_left _ _)
    have hreturns := hsound.returns _ [] .start (List.nil_subset _) ⟨f, hf, hreject⟩
    exact absurd (hreturns.mono fun _ _ => trivial) (h.expansions e he)
  have htables : FailsBy p ((entitySchemas ⟨root⟩).mapM (entityTable policy ⟨root⟩)) :=
    FailsBy.mapM fun e he => failsBy_entity hroot hmembers he
  have hpaths : FailsBy p (items.mapM (pathEndpoints ⟨root⟩)) :=
    FailsBy.mapM fun e he => failsBy_item hroot (failsBy_follow h.chains) hitems he
  rw [result_spec, if_neg hobject, reading, hitems]
  apply htables.bind
  intro tables ht
  apply hpaths.bind
  intro functions hf
  have hcollisions := h.collisions ⟨tables, functions.flatten⟩ items
    (by rw [result_tables]; exact ht) hitems (by rw [result_endpoints, hf]; rfl)
  rw [accepted, hcollisions]
  exact failsBy_ok _

/-- Such a document has a specification, unless a number is too long to be a name or a value stands
in itself; of these only an array of itself is gone through for ever. What has a specification is an
object with paths that are absent or an object, and its names do not collide. -/
theorem spec_of_acceptable (policy : Name.Policy) (root : Tree) :
    (Acceptable policy root →
      (∀ e, (spec policy root).result = .error e → e = .numberTooLong ∨ e = .endless ∨
        (e = .looping ∧ ∃ t, Within t root ∧ ArrayOfItself t)) ∧
      (Throughout Legible root → ∃ s, (spec policy root).result = .ok s)) ∧
    (∀ s, (spec policy root).result = .ok s →
      root.map?.isSome = true ∧ (pathItems ⟨root⟩).isSome = true ∧ s.collisions = []) := by
  refine ⟨fun h => ⟨?_, ?_⟩, ?_⟩
  · exact h.failsBy (throughout_spares (.inl rfl) (.inr (.inl rfl)) fun t ht hself =>
      .inr (.inr ⟨rfl, t, ht, hself⟩))
  · intro hlegible
    exact (h.failsBy (Throughout.spares_of_legible hlegible)).exists_ok
  · intro s hs
    have hparsed := parsed_of_spec hs
    obtain ⟨items, hitems, -⟩ := hparsed.functions
    refine ⟨?_, by rw [hitems]; rfl, hparsed.collisions⟩
    by_contra hobject
    rw [result_spec, if_pos (by simpa using hobject)] at hs
    cases hs

section Shallow
variable {d : Document} {P : Tree → Prop} {passes : Site → Prop} {start s next : Site}
  {trail entered : List Text}

/-- An expansion goes on in its schema, unless it enters a reference. -/
theorem within_of_next (h : Next d passes s entered next) :
    (entered = [] ∧ Within next.schema s.schema) ∨
      ∃ r, entered = [r] ∧ reference? s.schema = some (.str r) ∧ d.lookup r = some next.schema := by
  cases h with
  | @target r t hf =>
    cases hasForm hf with
    | target hr hl => exact .inr ⟨r, rfl, hr, hl⟩
  | inside hf => exact .inl ⟨rfl, recurring_of_inside hf ▸ .label (.self _)⟩
  | @part before after t hf hp hb =>
    have ht : t ∈ s.parts := by simp [hp]
    exact .inl ⟨rfl, within_of_mem_get_items ht⟩

/-- An expansion stays in its schema and in the document. -/
theorem throughout_of_path (hd : Throughout P d.root) (hs : Throughout P start.schema)
    (h : Path d passes start trail s) : Throughout P s.schema := by
  induction h with
  | start => exact hs
  | step _ hn ih =>
    rcases within_of_next hn with ⟨-, hw⟩ | ⟨r, -, -, hl⟩
    · exact ih.within hw
    · exact hd.within (within_of_lookup hl)

/-- A value that refers to nothing. -/
def Unlinked (t : Tree) : Prop :=
  reference? t = none

instance : DecidablePred Unlinked := fun t =>
  inferInstanceAs (Decidable (reference? t = none))

/-- A value that refers to nothing where there are references again. -/
def Shallow (d : Document) (t : Tree) : Prop :=
  ∀ v ∈ reference? t, ∀ r ∈ v.str?, ∀ u ∈ d.lookup r, Throughout Unlinked u

instance : DecidablePred (Shallow d) := fun t =>
  inferInstanceAs (Decidable (∀ v ∈ reference? t, ∀ r ∈ v.str?, ∀ u ∈ d.lookup r,
    Throughout Unlinked u))

theorem acyclic_of_shallow (hd : Throughout (Shallow d) d.root) (r : Text) :
    ¬ TransGen (LeadsTo d) r r := by
  intro h
  obtain ⟨q, -, t, ht, hr⟩ := TransGen.tail'_iff.mp h
  obtain ⟨next, ⟨u, hu, hnext⟩, -⟩ := TransGen.head'_iff.mp h
  have hunlinked : reference? u = none := (hd t (within_of_lookup ht) _ hr r rfl u hu).here
  rw [hunlinked] at hnext
  cases hnext

/-- Behind a reference there are no more references. -/
theorem unlinked_of_path (hd : Throughout (Shallow d) d.root)
    (hs : Throughout (Shallow d) start.schema) (h : Path d passes start trail s)
    (ht : trail ≠ []) : Throughout Unlinked s.schema := by
  induction h with
  | start => exact absurd rfl ht
  | step h hn ih =>
    rcases within_of_next hn with ⟨rfl, hw⟩ | ⟨r, rfl, hr, hl⟩
    · exact (ih ht).within hw
    · exact (throughout_of_path hd hs h).here _ hr r rfl _ hl

theorem not_returns_of_shallow (hd : Throughout (Shallow d) d.root)
    (hs : Throughout (Shallow d) start.schema) : ¬ Returns d passes start := by
  rintro ⟨trail, s, r, hpath, hr, hm⟩
  have hunlinked : reference? s.schema = none :=
    (unlinked_of_path hd hs hpath (List.ne_nil_of_mem hm)).here
  rw [hunlinked] at hr
  cases hr

end Shallow

section Examples

/-- The names that a document with a specification generates do not collide. -/
theorem collisions_of_spec {s : Spec} (h : (spec policy root).result = .ok s) {s' : Spec}
    {items : Entries} (ht : (tables policy ⟨root⟩ (entitySchemas ⟨root⟩)).result = .ok s'.tables)
    (hi : pathItems ⟨root⟩ = some items)
    (hf : (endpoints ⟨root⟩ items).result = .ok s'.functions) : s'.collisions = [] := by
  have hparsed := parsed_of_spec h
  obtain ⟨items', hitems, hfunctions⟩ := hparsed.functions
  obtain rfl := Option.some.inj (hitems.symm.trans hi)
  obtain ⟨tables, functions⟩ := s
  obtain ⟨tables', functions'⟩ := s'
  obtain rfl : tables = tables' := Except.ok.inj (hparsed.tables.symm.trans ht)
  obtain rfl : functions = functions' := Except.ok.inj (hfunctions.symm.trans hf)
  exact hparsed.collisions

/-- A schema that declares nothing is read as a table without columns. -/
theorem entityTable_of_bare {d : Document} {name : Text} (hr : reference? t = none)
    (hl : label? t = none) (hp : (t.get "allOf").items = [])
    (hown : withOwn t .empty = .ok .empty) :
    d.entityTable policy (.str name, t) = .ok ⟨name, []⟩ := by
  have hmembers : (d.members t).result = .ok .empty := by
    rw [result_members_of_single hr hl hp, hown]
  exact entityTable_of_members hmembers rfl

theorem exists_ok_of_any {α : Type} {x : Except Fault α} {p : α → Prop} [DecidablePred p]
    (h : x.toOption.any (p ·) = true) : ∃ a, x = .ok a ∧ p a := by
  cases x with
  | error e => cases h
  | ok a => exact ⟨a, rfl, by simpa [Except.toOption] using h⟩

/-- An entity with a truth value where the schema of a property should be. -/
def petEntity : Tree :=
  .map [(.str "properties", .map [(.str "id", .map []), (.str "name", .bool true)]),
    (.str "required", .list [.str "id"])]

/-- Another one, composed of the first and of a number. -/
def dogEntity : Tree :=
  .map [(.str "allOf", .list [petReference, .int 7])]

/-- Beside these a parameter and a number. -/
def kennelEntities : Entries :=
  [(.str "Dog", dogEntity), (.str "Limit", placed "limit" "query"), (.str "Pet", petEntity),
    (.str "Tag", .int 5)]

/-- A path with references, one of which leads nowhere, and a path that is a text. -/
def kennelPaths : Entries :=
  [(.str "/pets", .map [(.str "get", .map
      [(.str "parameters", .list
          [referring "#/definitions/Limit", referring "#/parameters/Page", .str "id"]),
        (.str "responses", .map [(.int 200, .map [(.str "schema", petReference)])])])]),
    (.str "/dogs", .str "none")]

def descriptionOf (entities paths : Entries) : Tree :=
  .map [(.str "definitions", .map entities), (.str "paths", .map paths)]

def kennel : Tree :=
  descriptionOf kennelEntities kennelPaths

def kennelMembers : Members :=
  ⟨[("id", .map []), ("name", .bool true)], ["id"]⟩

def kennelColumns : List Column :=
  [⟨"id", .unknown, false, true⟩, ⟨"name", .unknown, true, false⟩]

def kennelTables : List Table :=
  [⟨"Dog", kennelColumns⟩, ⟨"Limit", []⟩, ⟨"Pet", kennelColumns⟩, ⟨"Tag", []⟩]

theorem ends_petEntity : Ends ⟨kennel⟩ ⟨[], petEntity⟩ (.ok kennelMembers) :=
  ends_single rfl rfl

theorem ends_dogEntity : Ends ⟨kennel⟩ ⟨[], dogEntity⟩ (.ok kennelMembers) := by
  have hpet : Ends ⟨kennel⟩ ⟨[], petReference⟩ (.ok kennelMembers) :=
    .target (r := "#/definitions/Pet") rfl ends_petEntity
  have hseven : Ends ⟨kennel⟩ ⟨[], .int 7⟩ (.ok .empty) := ends_single rfl rfl
  refine .composed (m := fun t => if t.has "$ref" then kennelMembers else .empty) rfl ?_
  intro t ht
  rcases List.mem_cons.mp ht with rfl | ht
  · exact hpet
  · obtain rfl := List.mem_singleton.mp ht
    exact hseven

theorem columns_kennelMembers : columns .standard kennelMembers = .ok kennelColumns := by
  have hbool : dataType (.bool true) = .ok .unknown := by
    rw [dataType, dataTypeWithin_eq_step rfl]
    rfl
  simp only [columns, kennelMembers, List.mapM_cons, List.mapM_nil, column, dataType_empty, hbool]
  rfl

theorem tables_kennel :
    (tables .standard ⟨kennel⟩ (entitySchemas ⟨kennel⟩)).result = .ok kennelTables := by
  have hentities : entitySchemas ⟨kennel⟩ = kennelEntities := rfl
  have hdog : entityTable .standard ⟨kennel⟩ (.str "Dog", dogEntity) = .ok ⟨"Dog", kennelColumns⟩ :=
    entityTable_of_members (result_members_of_ends ends_dogEntity) columns_kennelMembers
  have hpet : entityTable .standard ⟨kennel⟩ (.str "Pet", petEntity) = .ok ⟨"Pet", kennelColumns⟩ :=
    entityTable_of_members (result_members_of_ends ends_petEntity) columns_kennelMembers
  have hlimit : entityTable .standard ⟨kennel⟩ (.str "Limit", placed "limit" "query") =
      .ok ⟨"Limit", []⟩ :=
    entityTable_of_bare rfl rfl rfl rfl
  have htag : entityTable .standard ⟨kennel⟩ (.str "Tag", .int 5) = .ok ⟨"Tag", []⟩ :=
    entityTable_of_bare rfl rfl rfl rfl
  rw [result_tables, hentities, kennelEntities, List.mapM_cons, List.mapM_cons, List.mapM_cons,
    List.mapM_cons, hdog, hlimit, hpet, htag]
  rfl

/-- One function, whose parameter stands among the entities. -/
def GetsPets (fs : List Endpoint) : Prop :=
  fs.map (·.name) = [Text.ofString "getPets"] ∧
    fs.map (·.parameters.map (·.name)) = [[Text.ofString "limit"]] ∧
    fs.map (·.responseBody) = [some (Text.ofString "Pet")]

instance : DecidablePred GetsPets := fun _ =>
  inferInstanceAs (Decidable (_ ∧ _ ∧ _))

theorem endpoints_kennel : ∃ fs, (endpoints ⟨kennel⟩ kennelPaths).result = .ok fs ∧
    GetsPets fs ∧ (Spec.mk kennelTables fs).collisions = [] :=
  exists_ok_of_any (by decide +kernel)

theorem spec_kennel : ∃ fs, GetsPets fs ∧
    (spec .standard kennel).result = .ok ⟨kennelTables, fs⟩ := by
  obtain ⟨fs, hfs, hnames, hcollisions⟩ := endpoints_kennel
  have hparsed : Parsed .standard ⟨kennel⟩ ⟨kennelTables, fs⟩ :=
    ⟨tables_kennel, ⟨kennelPaths, rfl, hfs⟩, hcollisions⟩
  exact ⟨fs, hnames, hparsed.result_spec rfl⟩

theorem shallow_kennel : Throughout (Shallow ⟨kennel⟩) kennel := by
  decide +kernel

theorem legible_kennel : Throughout Legible kennel := by
  decide +kernel

theorem acceptable_kennel : Acceptable .standard kennel := by
  obtain ⟨fs, -, hspec⟩ := spec_kennel
  refine ⟨rfl, rfl, acyclic_of_shallow shallow_kennel, ?_, ?_⟩
  · intro e he
    have hdefinitions : kennel.get? "definitions" = some (.map kennelEntities) := rfl
    have hvalue : Within e.2 kennel :=
      (within_of_mem_entries rfl he).trans (within_of_get? hdefinitions)
    exact not_returns_of_shallow shallow_kennel (shallow_kennel.within hvalue)
  · exact fun s items ht hi hf => collisions_of_spec hspec ht hi hf

theorem spec_of_acceptable_kennel :
    Acceptable .standard kennel ∧ Throughout Legible kennel ∧
      ∃ s, (spec .standard kennel).result = .ok s ∧ s.tables = kennelTables ∧
        GetsPets s.functions := by
  obtain ⟨fs, hgets, hspec⟩ := spec_kennel
  obtain ⟨s, hs⟩ := ((spec_of_acceptable .standard kennel).1 acceptable_kennel).2 legible_kennel
  obtain rfl : s = ⟨kennelTables, fs⟩ := Except.ok.inj (hs.symm.trans hspec)
  exact ⟨acceptable_kennel, legible_kennel, _, hs, rfl, hgets⟩

/-- A document that defines nothing but entities. -/
def defined (entities : Entries) : Tree :=
  .map [(.str "definitions", .map entities)]

/-- An entity without properties, whose name is a number. -/
def numbered (n : Int) : Tree :=
  defined [(.int n, .map [])]

theorem isWritable_unwritable : isWritable (.int unwritable) = false := by
  rw [isWritable, isWritableWithin, Int.natAbs_natCast]
  exact decide_eq_false (Nat.lt_irrefl _)

/-- An entity may be called by a number of any size, except that the name cannot be written. -/
theorem acceptable_numbered_unwritable :
    Acceptable .standard (numbered unwritable) ∧
      (spec .standard (numbered unwritable)).result = .error .numberTooLong := by
  have hentities : entitySchemas ⟨numbered unwritable⟩ = [(.int unwritable, .map [])] := rfl
  have htables : (entitySchemas ⟨numbered unwritable⟩).mapM
      (entityTable .standard ⟨numbered unwritable⟩) = .error .numberTooLong := by
    rw [hentities, List.mapM_cons, entityTable, nameOf_of_not_isWritable isWritable_unwritable]
    rfl
  have hshallow : Throughout (Shallow ⟨numbered unwritable⟩) (numbered unwritable) := by
    decide +kernel
  refine ⟨⟨rfl, rfl, acyclic_of_shallow hshallow, ?_, ?_⟩, ?_⟩
  · intro e he
    rw [hentities] at he
    obtain rfl := List.mem_singleton.mp he
    have hentity : Throughout (Shallow ⟨numbered unwritable⟩) (.map []) := by decide +kernel
    exact not_returns_of_shallow hshallow hentity
  · intro s items hs
    rw [result_tables, htables] at hs
    cases hs
  · have hobject : ¬ (numbered unwritable).map?.isNone = true := by decide
    rw [result_spec, if_neg hobject, reading, htables]
    rfl

end Examples

end ApiScaffold.Document
