import ApiScaffold.Command.Run
import ApiScaffold.Proofs.Checked
import ApiScaffold.Proofs.Document.Rearrangement

namespace ApiScaffold

theorem error_of_mapError {α ε ε' : Type} {x : Except ε α} {g : ε → ε'} {e : ε'}
    (h : x.mapError g = .error e) : ∃ f, x = .error f ∧ e = g f := by
  cases x with
  | error f =>
    cases h
    exact ⟨f, rfl, rfl⟩
  | ok a => cases h

theorem ok_of_mapError {α ε ε' : Type} {x : Except ε α} {g : ε → ε'} {a : α}
    (h : x.mapError g = .ok a) : x = .ok a := by
  cases x with
  | error f => cases h
  | ok b =>
    cases h
    rfl

namespace Config
open Checked
variable {t : Tree} {config : Config} {entries : Tree.Entries}

/-- The tree that a file of settings holds. -/
def treeOf : Disk.Status → Except ReadFault Tree
  | .missing | .directory => .error .missing
  | .nameTooLong => .error .nameTooLong
  | .file bytes => do
    let text ← (Text.Utf8.decode bytes).mapError .encoding
    (Yaml.load .wide (Text.ofChars (Text.unixBreaks text))).mapError .format

theorem read_eq (s : Disk.Status) : read s = treeOf s >>= ofTree := by
  cases s with
  | missing | nameTooLong | directory => rfl
  | file bytes =>
    rw [read, treeOf]
    cases Text.Utf8.decode bytes with
    | error f => rfl
    | ok text => rfl

/-- Where settings want the output, if they say so. -/
def output? (t : Tree) : Option Path :=
  ((t.get? "output_dir").bind Tree.str?).map fun path => .ofText path

theorem outputDir_of_checkSettings (h : checkSettings entries = .valid config) :
    config.outputDir =
      (((Tree.find? (.str "output_dir") entries).bind Tree.str?).map fun path =>
        Path.ofText path).getD standard.outputDir := by
  obtain ⟨_, _, hquery, -, rfl⟩ := valid_of_seq h
  obtain ⟨_, _, himport, -, rfl⟩ := valid_of_seq hquery
  obtain ⟨_, _, htypes, -, rfl⟩ := valid_of_seq himport
  obtain ⟨_, _, hhooks, -, rfl⟩ := valid_of_seq htypes
  obtain ⟨_, _, hdb, -, rfl⟩ := valid_of_seq hhooks
  obtain ⟨_, _, houtput, -, rfl⟩ := valid_of_seq hdb
  obtain ⟨outputDir, hfield, rfl⟩ := valid_of_map houtput
  rw [field] at hfield
  split at hfield
  · rename_i value hvalue
    have hpath := valid_of_under hfield
    rw [hvalue]
    cases value with
    | str s =>
      cases hpath
      rfl
    | _ => cases hpath
  · rename_i hnone
    cases hfield
    rw [hnone]
    rfl

theorem outputDir_of_ofTree (h : ofTree t = .ok config) :
    config.outputDir = (output? t).getD standard.outputDir := by
  rw [ofTree] at h
  split at h
  · rename_i hnull
    cases t <;> cases hnull
    cases h
    rfl
  · split at h
    · cases h
    · rename_i entries hmap
      split at h
      · rename_i checked hcheck
        cases h
        rw [check] at hcheck
        split at hcheck
        · cases hcheck
        · simp only [output?, Tree.get?, hmap, Option.bind_some]
          exact outputDir_of_checkSettings hcheck
      · cases h

theorem outputDir_of_read {s : Disk.Status} (h : read s = .ok config) :
    config.outputDir = ((treeOf s).toOption.bind output?).getD standard.outputDir := by
  rw [read_eq] at h
  obtain ⟨t, ht, hof⟩ := Document.ok_of_bind h
  rw [ht]
  exact outputDir_of_ofTree hof

end Config

/-- A document whose description never comes to an end: an array in it holds itself, and the search
for the type of a body goes around in it. -/
inductive Document.Unending : Disk.Status → Prop
  | intro {s : Disk.Status} {tree root schema : Tree} (held : read s = .ok tree)
      (inner : contents tree = .ok root) (result : (spec .standard root).result = .error .looping)
      (within : Tree.Within schema root) (itself : ArrayOfItself schema) : Unending s

namespace Command
variable {o : Options} {look : Path → Disk.Status} {config : Config}

/-- The settings of a run: those of the file that was asked for, or the standard ones. -/
def settings (o : Options) (look : Path → Disk.Status) : Except Failure Config :=
  match o.config with
  | none => .ok .standard
  | some path => (Config.read (look path)).mapError (Failure.config path)

/-- The specification of the document of a run. -/
def description (o : Options) (look : Path → Disk.Status) : Except Failure Spec :=
  match Document.read (look o.document) with
  | .error f => .error (.document o.document.text f)
  | .ok tree => (specOf o tree).2

/-- Where the settings of a run want the output, if they say so. -/
def settingsOutput? (o : Options) (look : Path → Disk.Status) : Option Path :=
  o.config.bind fun path => (Config.treeOf (look path)).toOption.bind Config.output?

theorem outputDir_of_settings (h : settings o look = .ok config) :
    config.outputDir = (settingsOutput? o look).getD Config.standard.outputDir := by
  rw [settings] at h
  rw [settingsOutput?]
  cases hc : o.config with
  | none =>
    rw [hc] at h
    cases h
    rfl
  | some path =>
    rw [hc] at h
    exact Config.outputDir_of_read (ok_of_mapError h)

/-- A run is planned from its settings and its specification, one after the other. -/
theorem plan_result (o : Options) (look : Path → Disk.Status) :
    (plan o look).2 = (do
      let config ← settings o look
      let spec ← description o look
      .ok (o.output.getD config.outputDir, spec.artifacts config .standard)) := by
  obtain ⟨document, output, config, verbose⟩ := o
  cases config with
  | none =>
    simp only [plan, settings, description]
    rcases Document.read (look document) with f | tree
    · rfl
    · dsimp only
      rcases specOf ⟨document, output, none, verbose⟩ tree with ⟨lines, f | spec⟩ <;> rfl
  | some path =>
    simp only [plan, settings, description]
    rcases Config.read (look path) with f | config
    · rfl
    · rcases Document.read (look document) with f | tree
      · rfl
      · dsimp only [Except.mapError]
        rcases specOf ⟨document, output, some path, verbose⟩ tree with ⟨lines, f | spec⟩ <;> rfl

theorem plan_of_settings {f : Failure} (h : settings o look = .error f) :
    (plan o look).2 = .error f := by
  rw [plan_result, h]
  rfl

theorem plan_of_description {config : Config} {f : Failure} (hs : settings o look = .ok config)
    (hd : description o look = .error f) : (plan o look).2 = .error f := by
  rw [plan_result, hs, hd]
  rfl

theorem error_of_plan {f : Failure} (h : (plan o look).2 = .error f) :
    settings o look = .error f ∨
      ∃ config, settings o look = .ok config ∧ description o look = .error f := by
  rw [plan_result] at h
  rcases Document.error_of_bind h with hs | ⟨config, hs, h⟩
  · exact .inl hs
  · rcases Document.error_of_bind h with hd | ⟨spec, -, h⟩
    · exact .inr ⟨config, hs, hd⟩
    · cases h

theorem ok_of_plan {root : Path} {artifacts : List Artifact}
    (h : (plan o look).2 = .ok (root, artifacts)) : ∃ config spec,
      settings o look = .ok config ∧ description o look = .ok spec ∧
      root = o.output.getD config.outputDir ∧ artifacts = spec.artifacts config .standard := by
  rw [plan_result] at h
  obtain ⟨config, hs, h⟩ := Document.ok_of_bind h
  obtain ⟨spec, hd, h⟩ := Document.ok_of_bind h
  cases h
  exact ⟨config, spec, hs, hd, rfl, rfl⟩

theorem settings_ne_description {f : Document.Fault} :
    settings o look ≠ .error (.description f) := by
  intro h
  rw [settings] at h
  split at h
  · cases h
  · obtain ⟨g, -, hg⟩ := error_of_mapError h
    cases hg

/-- These are the documents that have no end of a description. -/
theorem document_unending_iff : Document.Unending (look o.document) ↔
    description o look = .error (.description .looping) := by
  rw [description]
  constructor
  · rintro ⟨held, inner, result, -, -⟩
    simp only [held, specOf, inner, result]
    rfl
  · intro h
    cases held : Document.read (look o.document) with
    | error f =>
      rw [held] at h
      cases h
    | ok tree =>
      rw [held] at h
      cases inner : Document.contents tree with
      | error f =>
        simp only [specOf, inner] at h
        cases h
      | ok root =>
        simp only [specOf, inner] at h
        obtain ⟨f, result, hf⟩ := error_of_mapError h
        cases hf
        obtain ⟨schema, within, itself⟩ := Document.exists_arrayOfItself_of_spec result
        exact ⟨held, inner, result, within, itself⟩

namespace Failure
variable {f : Failure}

theorem eq_of_code?_eq_none (h : f.code? = none) : f = .description .looping := by
  unfold code? at h
  split at h
  · rfl
  · cases h

theorem eq_one_of_code? {code : Nat} (h : f.code? = some code) : code = 1 := by
  unfold code? at h
  split at h
  · cases h
  · exact (Option.some.inj h).symm

theorem code?_of_isForeseen (h : f.isForeseen = true) : f.code? = some 1 := by
  cases hcode : f.code? with
  | none =>
    obtain rfl := eq_of_code?_eq_none hcode
    cases h
  | some code => rw [eq_one_of_code? hcode]

end Failure

namespace Request

/-- Where the surroundings want the output. An empty text is no wish. -/
def surroundings? (output : Option String) : Option Path :=
  (output.filter (· != "")).map fun path => .ofText path

/-- A request for a command whose output goes elsewhere unless an argument says where. -/
def orOutput (wanted : Option Path) : Request → Request
  | run verb o => run verb { o with output := o.output.or wanted }
  | r => r

theorem ofVerb_eq (output : Option String) (verb : Verb) (args : List String) :
    ofVerb output verb args = (ofVerb none verb args).orOutput (surroundings? output) := by
  simp only [ofVerb]
  split
  · rfl
  · split
    · rfl
    · split
      · rfl
      · split
        · rfl
        · rename_i document htexts
          simp only [orOutput, surroundings?]
          cases ‹Reading›.get? .output <;> rfl
        · rfl

theorem ofArguments_eq (output : Option String) (args : List String) :
    ofArguments output args = (ofArguments none args).orOutput (surroundings? output) := by
  unfold ofArguments
  split
  · rfl
  · split
    · rfl
    · split
      · rfl
      · split
        · rfl
        · split
          · exact ofVerb_eq _ _ _
          · rename_i h
            rw [ofUnknown]
            split
            · rfl
            · split <;> rfl
end Request

end Command
end ApiScaffold
