import ApiScaffold.Artifact.Report
import ApiScaffold.Proofs.Command.Generation
import ApiScaffold.Proofs.Document.Rearrangement
import ApiScaffold.Proofs.Sql.Soundness

namespace ApiScaffold

/-- What is built for the texts of a specification. -/
def Spec.nodes (policy : Name.Policy) (s : Spec) : List Sql.Node :=
  s.tables.flatMap Table.nodes ++ s.functions.flatMap (·.nodes policy)

theorem Spec.check_of_mem_nodes {policy : Name.Policy} {s : Spec} {n : Sql.Node}
    (hn : n ∈ s.nodes policy) : Sql.Node.check n.fields n.form = .valid n := by
  rcases List.mem_append.mp hn with ht | hf
  · obtain ⟨t, -, ht⟩ := List.mem_flatMap.mp ht
    exact Sql.Node.check_fields (t.isSound_of_mem_nodes n ht)
  · obtain ⟨f, -, hf⟩ := List.mem_flatMap.mp hf
    exact Sql.Node.check_fields (f.isSound_of_mem_nodes policy n hf)

/-- A file of settings that ends the program as it stands: its path is too long to look at, its
bytes are no text, or its text claims a value that there is not. -/
inductive Config.Unforeseen : Disk.Status → Prop
  | longName : Unforeseen .nameTooLong
  | noText {bytes : List UInt8} {f : Text.Utf8.Fault} (coded : Text.Utf8.decode bytes = .error f) :
      Unforeseen (.file bytes)
  | noValue {bytes : List UInt8} {text : List Char} {f : Yaml.ValueFault}
      (coded : Text.Utf8.decode bytes = .ok text)
      (loaded : Yaml.load .wide (Text.ofChars (Text.unixBreaks text)) = .error (.value f)) :
      Unforeseen (.file bytes)

namespace Config
open Command
variable {s : Disk.Status} {f : ReadFault}

theorem isForeseen_of_ofTree {path : Path} {t : Tree} (h : ofTree t = .error f) :
    (Failure.config path f).isForeseen = true := by
  rw [ofTree] at h
  split at h
  · cases h
  · split at h
    · cases h
      rfl
    · split at h
      · cases h
      · cases h
        rfl

/-- Of the files of settings that are refused, all others are told about. -/
theorem unforeseen_iff (path : Path) :
    Unforeseen s ↔ ∃ f, read s = .error f ∧ (Failure.config path f).isForeseen = false := by
  constructor
  · intro h
    cases h with
    | longName => exact ⟨.nameTooLong, rfl, rfl⟩
    | @noText bytes f coded => exact ⟨.encoding f, by rw [read, coded]; rfl, rfl⟩
    | @noValue bytes text f coded loaded =>
      refine ⟨.format (.value f), ?_, rfl⟩
      rw [read, coded]
      exact congrArg (fun x => Except.mapError ReadFault.format x >>= ofTree) loaded
  · rintro ⟨f, hread, hf⟩
    cases s with
    | missing | directory =>
      cases hread
      cases hf
    | nameTooLong => exact .longName
    | file bytes =>
      rcases Document.error_of_bind hread with hfault | ⟨text, htext, hrest⟩
      · obtain ⟨g, hcoded, -⟩ := error_of_mapError hfault
        exact .noText hcoded
      · have hcoded := ok_of_mapError htext
        rcases Document.error_of_bind hrest with hfault | ⟨t, -, hof⟩
        · obtain ⟨g, hload, hg⟩ := error_of_mapError hfault
          subst hg
          cases g with
          | value f => exact .noValue hcoded hload
          | _ => cases hf
        · rw [isForeseen_of_ofTree hof] at hf
          cases hf

end Config

/-- A document that ends the program as it stands, or keeps it from ending. Its path is too long to
look at; the text that it holds, or the text in that one, claims a value that there is not; or it
stands inside itself or has a name that cannot be written, so it is not legible. -/
inductive Document.Unforeseen : Disk.Status → Prop
  | longName : Unforeseen .nameTooLong
  | noValue {bytes : List UInt8} {text : List Char} {f : Yaml.ValueFault}
      (coded : Text.Utf8.decode bytes = .ok text)
      (loaded : Yaml.load .plain (Text.ofChars (Text.unixBreaks text)) = .error (.value f)) :
      Unforeseen (.file bytes)
  | noInnerValue {s : Disk.Status} {text : Text} {f : Yaml.ValueFault}
      (held : read s = .ok (.str text)) (loaded : Yaml.load .plain text = .error (.value f)) :
      Unforeseen s
  | unread {s : Disk.Status} {tree root : Tree} {f : Fault} (held : read s = .ok tree)
      (inner : contents tree = .ok root) (result : (spec .standard root).result = .error f)
      (hf : f.isRejection = false) (illegible : ¬ Tree.Throughout Legible root) : Unforeseen s

namespace Command
open Text Artifact
variable {o : Options} {look : Path → Disk.Status}

theorem document_unforeseen_of_read {source : Text} {s : Disk.Status} {f : Document.ReadFault}
    (h : Document.read s = .error f) (hf : (Failure.document source f).isForeseen = false) :
    Document.Unforeseen s := by
  cases s with
  | missing | directory =>
    cases h
    cases hf
  | nameTooLong => exact .longName
  | file bytes =>
    rcases Document.error_of_bind h with hfault | ⟨text, htext, hrest⟩
    · obtain ⟨g, -, hg⟩ := error_of_mapError hfault
      subst hg
      cases hf
    · obtain ⟨g, hload, hg⟩ := error_of_mapError hrest
      subst hg
      cases g with
      | value f => exact .noValue (ok_of_mapError htext) hload
      | _ => cases hf

theorem document_unforeseen_of_contents {source : Text} {s : Disk.Status} {t : Tree}
    {f : Document.ReadFault} (held : Document.read s = .ok t) (h : Document.contents t = .error f)
    (hf : (Failure.document source f).isForeseen = false) : Document.Unforeseen s := by
  cases t with
  | str text =>
    obtain ⟨g, hload, hg⟩ := error_of_mapError h
    subst hg
    cases g with
    | value f => exact .noInnerValue held hload
    | _ => cases hf
  | _ => cases h

theorem isForeseen_description {f : Document.Fault} :
    (Failure.description f).isForeseen = f.isRejection := by
  cases f <;> rfl

/-- Of the documents that have no specification, all others are told about. -/
theorem document_unforeseen_iff : Document.Unforeseen (look o.document) ↔
    ∃ f, description o look = .error f ∧ f.isForeseen = false := by
  rw [description]
  constructor
  · intro h
    generalize look o.document = s at h
    cases h with
    | longName => exact ⟨_, rfl, rfl⟩
    | @noValue bytes text f coded loaded =>
      have hread : Document.read (.file bytes) = .error (.format (.value f)) := by
        rw [Document.read, coded]
        exact congrArg (Except.mapError Document.ReadFault.format) loaded
      rw [hread]
      exact ⟨_, rfl, rfl⟩
    | @noInnerValue _ text f held loaded =>
      have hcontents : Document.contents (.str text) = .error (.format (.value f)) :=
        congrArg (Except.mapError Document.ReadFault.format) loaded
      rw [held]
      simp only [specOf, hcontents]
      exact ⟨_, rfl, rfl⟩
    | @unread _ tree root f held inner result hf illegible =>
      rw [held]
      simp only [specOf, inner, result]
      exact ⟨_, rfl, isForeseen_description.trans hf⟩
  · rintro ⟨f, h, hf⟩
    cases held : Document.read (look o.document) with
    | error g =>
      rw [held] at h
      cases h
      exact document_unforeseen_of_read held hf
    | ok tree =>
      rw [held] at h
      cases inner : Document.contents tree with
      | error g =>
        simp only [specOf, inner] at h
        cases h
        exact document_unforeseen_of_contents held inner hf
      | ok root =>
        simp only [specOf, inner] at h
        obtain ⟨g, result, rfl⟩ := error_of_mapError h
        rw [isForeseen_description] at hf
        refine .unread held inner result hf fun legible => ?_
        rw [Document.failsBy_spec_of_legible .standard legible g result] at hf
        cases hf

/-- An outcome that tells itself: all went well, or what failed was foreseen and is told as the
error. -/
inductive Orderly : Outcome → Prop
  | success (stdout stderr : String) : Orderly ⟨some 0, stdout, stderr, none⟩
  | failure (f : Failure) (foreseen : f.isForeseen = true) (stdout : String) (before : List Text) :
      Orderly ⟨some 1, stdout, Lines.text (before ++ [ofString "Error: " ++ f.message]), some f⟩

theorem Orderly.foreseen {r : Outcome} {f : Failure} (h : Orderly r) (hf : r.failure = some f) :
    f.isForeseen = true := by
  cases h with
  | success => cases hf
  | failure g foreseen =>
    cases hf
    exact foreseen

theorem orderly_succeed (l : Lines) : Orderly l.succeed :=
  .success _ _

theorem orderly_fail_iff {f : Failure} {l : Lines} :
    Orderly (l.fail f) ↔ f.isForeseen = true := by
  constructor
  · intro h
    exact h.foreseen rfl
  · intro h
    simp only [Lines.fail, if_pos h, Failure.code?_of_isForeseen h]
    exact .failure f h _ _

theorem Concluded.orderly_iff {root : Path} {total : Nat} {r : WriteReport} {out : Outcome}
    (h : Concluded root total r out) : Orderly out ↔ r.stopped = none ∧ Tellable root r := by
  cases h with
  | stopped hstopped => simp [orderly_fail_iff, hstopped, Failure.isForeseen]
  | untold hstopped htold => simp [orderly_fail_iff, htold, Failure.isForeseen]
  | unwritten hstopped htold _ => simp [orderly_fail_iff, hstopped, htold, Failure.isForeseen]
  | done hstopped htold _ => simp [orderly_succeed, hstopped, htold]

/-- The ways in which a command ends the program as it stands, or keeps it from ending. Only
generating reads settings, and it reads them first. -/
inductive Escapes (o : Options) (d : Disk) : Verb → Prop
  | settings {path : Path} (asked : o.config = some path)
      (h : Config.Unforeseen (d.look path)) : Escapes o d .generate
  | description {verb : Verb} (h : Document.Unforeseen (d.look o.document))
      (ready : verb = .generate → ∃ config, settings o d.look = .ok config) : Escapes o d verb
  | writing {root : Path} {artifacts : List Artifact}
      (planned : (plan o d.look).2 = .ok (root, artifacts))
      (h : ¬ ((Artifact.writeAll root artifacts d).2.stopped = none ∧
        Tellable root (Artifact.writeAll root artifacts d).2)) : Escapes o d .generate
  | showing {spec : Spec} (described : Command.description o d.look = .ok spec)
      (h : shown? spec = none) : Escapes o d .inspect

theorem settings_unforeseen_iff {d : Disk} :
    (∃ path, o.config = some path ∧ Config.Unforeseen (d.look path)) ↔
      ∃ f, settings o d.look = .error f ∧ f.isForeseen = false := by
  rw [settings]
  cases o.config with
  | none => simp
  | some path =>
    constructor
    · rintro ⟨_, he, h⟩
      cases he
      obtain ⟨f, hread, hf⟩ := (Config.unforeseen_iff path).mp h
      exact ⟨_, congrArg (Except.mapError (Failure.config path)) hread, hf⟩
    · rintro ⟨f, h, hf⟩
      obtain ⟨g, hread, rfl⟩ := error_of_mapError h
      exact ⟨path, rfl, (Config.unforeseen_iff path).mpr ⟨g, hread, hf⟩⟩

theorem escapes_iff_of_plan_error {d : Disk} {f : Failure}
    (h : (plan o d.look).2 = .error f) : Escapes o d .generate ↔ f.isForeseen = false := by
  constructor
  · intro he
    cases he with
    | settings asked hu =>
      obtain ⟨g, hs, hg⟩ := settings_unforeseen_iff.mp ⟨_, asked, hu⟩
      rw [plan_of_settings hs] at h
      cases h
      exact hg
    | description hu ready =>
      obtain ⟨config, hs⟩ := ready rfl
      obtain ⟨g, hd, hg⟩ := document_unforeseen_iff.mp hu
      rw [plan_of_description hs hd] at h
      cases h
      exact hg
    | writing planned =>
      rw [planned] at h
      cases h
  · intro hf
    rcases error_of_plan h with hs | ⟨config, hs, hd⟩
    · obtain ⟨path, asked, hu⟩ := settings_unforeseen_iff.mpr ⟨f, hs, hf⟩
      exact .settings asked hu
    · exact .description (document_unforeseen_iff.mpr ⟨f, hd, hf⟩) fun _ => ⟨config, hs⟩

theorem escapes_iff_of_plan_ok {d : Disk} {root : Path} {artifacts : List Artifact}
    (h : (plan o d.look).2 = .ok (root, artifacts)) : Escapes o d .generate ↔
      ¬ ((Artifact.writeAll root artifacts d).2.stopped = none ∧
        Tellable root (Artifact.writeAll root artifacts d).2) := by
  constructor
  · intro he
    cases he with
    | settings asked hu =>
      obtain ⟨g, hs, -⟩ := settings_unforeseen_iff.mp ⟨_, asked, hu⟩
      rw [plan_of_settings hs] at h
      cases h
    | description hu ready =>
      obtain ⟨config, hs⟩ := ready rfl
      obtain ⟨g, hd, -⟩ := document_unforeseen_iff.mp hu
      rw [plan_of_description hs hd] at h
      cases h
    | writing planned hw =>
      rw [planned] at h
      cases h
      exact hw
  · exact .writing h

theorem orderly_generate_iff (o : Options) (d : Disk) :
    Orderly (generate o d).1 ↔ ¬ Escapes o d .generate := by
  rcases hp : plan o d.look with ⟨lines, f | ⟨root, artifacts⟩⟩
  · rw [escapes_iff_of_plan_error (congrArg Prod.snd hp), generate, hp, orderly_fail_iff,
      Bool.not_eq_false]
  · rw [escapes_iff_of_plan_ok (congrArg Prod.snd hp), generate, hp, not_not]
    exact (concluded o root artifacts.length lines _).orderly_iff

theorem isForeseen_unshown : Failure.unshown.isForeseen = false :=
  rfl

theorem escapes_inspect_iff {d : Disk} : Escapes o d .inspect ↔
    Document.Unforeseen (d.look o.document) ∨
      ∃ spec, description o d.look = .ok spec ∧ shown? spec = none := by
  constructor
  · intro h
    cases h with
    | description hu => exact .inl hu
    | showing described h => exact .inr ⟨_, described, h⟩
  · rintro (hu | ⟨spec, described, h⟩)
    · exact .description hu fun hverb => by cases hverb
    · exact .showing described h

theorem orderly_inspect_iff (o : Options) (d : Disk) :
    Orderly (inspect o d.look) ↔ ¬ Escapes o d .inspect := by
  rw [escapes_inspect_iff, document_unforeseen_iff, description, inspect]
  cases Document.read (d.look o.document) with
  | error f => simp [orderly_fail_iff]
  | ok tree =>
    dsimp only
    rcases specOf o tree with ⟨lines, f | spec⟩
    · simp [orderly_fail_iff]
    · cases hshown : shown? spec with
      | none => simp [hshown, orderly_fail_iff, isForeseen_unshown]
      | some text => simp [hshown, orderly_succeed]

/-- Every command succeeds or tells what failed, unless it escapes by its settings, by its
document or by what cannot be written or shown. It never ends just if its document is one of no end.
Rendering is never in the way: whatever the specification, each node that is built passes the checks
of its builder. -/
theorem run_orderly_iff {verb : Verb} {output : Option String} {args : List String}
    (h : Request.ofArguments output args = .run verb o) (d : Disk) :
    (Orderly (run output args d).1 ↔ ¬ Escapes o d verb) ∧
    ((run output args d).1.code = none ↔ Document.Unending (d.look o.document) ∧
      (verb = .generate → ∃ config, settings o d.look = .ok config)) ∧
    ∀ (s : Spec) (n : Sql.Node), n ∈ s.nodes .standard →
      Sql.Node.check n.fields n.form = .valid n := by
  rw [run, h]
  cases verb with
  | generate =>
    refine ⟨orderly_generate_iff o d, ?_, fun s n => Spec.check_of_mem_nodes⟩
    simpa using code_generate_eq_none_iff o d
  | inspect =>
    refine ⟨orderly_inspect_iff o d, ?_, fun s n => Spec.check_of_mem_nodes⟩
    simpa using code_inspect_eq_none_iff o d

/-- A document, and a file with a byte that begins no character. -/
def undecodable : Disk :=
  ⟨[], [([[100]], .file ((Utf8.encode? (ofString "paths:\n")).getD [])), ([[99]], .file [0xff])]⟩

/-- As a document, such a file is told about. Of the list that holds itself nothing is told. -/
theorem run_orderly_undecodable :
    (Request.ofArguments none ["inspect", "c"] =
      .run .inspect ⟨.ofText "c", none, none, false⟩ ∧
    Orderly (run none ["inspect", "c"] undecodable).1 ∧
    ¬ Escapes ⟨.ofText "c", none, none, false⟩ undecodable .inspect) ∧
    Request.ofArguments none ["inspect", "d"] = .run .inspect plainRequest ∧
    (run none ["inspect", "d"] circling).1.code = none ∧
    Document.Unending (circling.look plainRequest.document) := by
  have hasked : Request.ofArguments none ["inspect", "c"] =
      .run .inspect ⟨.ofText "c", none, none, false⟩ := by
    decide +kernel
  let f : Failure := .document "c" (.encoding ⟨0, 1, 0xff, .invalidStart⟩)
  have hrun : (run none ["inspect", "c"] undecodable).1 =
      ⟨some 1, "", Lines.text ([] ++ [ofString "Error: " ++ f.message]), some f⟩ := by
    decide +kernel
  have horderly : Orderly (run none ["inspect", "c"] undecodable).1 := by
    rw [hrun]
    exact .failure f rfl _ _
  have hcircling : Request.ofArguments none ["inspect", "d"] = .run .inspect plainRequest := by
    decide +kernel
  have hcode : (run none ["inspect", "d"] circling).1.code = none :=
    (run_orderly_iff hcircling circling).2.1.mpr ⟨unending_circling, fun h => by cases h⟩
  exact ⟨⟨hasked, horderly, (run_orderly_iff hasked undecodable).1.mp horderly⟩, hcircling, hcode,
    unending_circling⟩

/-- As settings, it ends the program as it stands. -/
theorem not_orderly_undecodable :
    Request.ofArguments none ["generate", "d", "--config", "c"] =
      .run .generate ⟨.ofText "d", none, some (.ofText "c"), false⟩ ∧
    ¬ Orderly (run none ["generate", "d", "--config", "c"] undecodable).1 := by
  refine ⟨by decide +kernel, fun h => ?_⟩
  have hfailure : (run none ["generate", "d", "--config", "c"] undecodable).1.failure =
      some (.config (.ofText "c") (.encoding ⟨0, 1, 0xff, .invalidStart⟩)) := by
    decide +kernel
  exact Bool.false_ne_true (h.foreseen hfailure)

end Command
end ApiScaffold
