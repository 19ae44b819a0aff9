import ApiScaffold.Proofs.Artifact.Put
import ApiScaffold.Proofs.Artifact.Tries
import ApiScaffold.Proofs.Command.Conclusion
import ApiScaffold.Proofs.Command.Stages

namespace ApiScaffold

namespace Command
open Text Artifact
variable {o : Options} {root : Path} {total : Nat} {lines : Lines}

/-- A run that came as far as writing below a root. A first part of the artifacts was tried, each of
them once; others are left out only behind one that no disk can hold, as it has no bytes or no path
that can be named. The exit code is zero just if everything was tried and written, and if the
places of it can be told. -/
structure Written (root : Path) (artifacts : List Artifact) (d : Disk) (run : Outcome × Disk)
    (tried : List Attempt) (rest : List Artifact) : Prop where
  apart : (paths artifacts).Nodup
  parts : artifacts = tried.map (·.artifact) ++ rest
  tries : Tries root d tried run.2
  stops : rest = [] ∨ ∃ before t, tried = before ++ [t] ∧ t.isFinal = true ∧
    (¬ HasBytes t.artifact.text ∨ ¬ (t.artifact.target root).Nameable)
  code : run.1.code = some (if rest = [] ∧ (∀ t ∈ tried, t.fault = none) ∧
    (∀ t ∈ tried, HasBytes (t.artifact.target root).text) ∧ HasBytes root.text then 0 else 1)

theorem written_of_conclude {artifacts : List Artifact} (hapart : (paths artifacts).Nodup)
    (d : Disk) : ∃ tried rest, Written root artifacts d
      (conclude o root total lines (Artifact.writeAll root artifacts d).2,
        (Artifact.writeAll root artifacts d).1) tried rest := by
  obtain ⟨tried, rest, hparts, htries, hreports, hrest⟩ := writeAll_tries root artifacts d
  refine ⟨tried, rest, hapart, hparts, htries, ?_, ?_⟩
  · rcases hrest with ⟨hrest, -⟩ | ⟨before, t, rfl, hfinal⟩
    · exact .inl hrest
    · have hwhy := htries.not_nameable (by simp) hfinal
      refine .inr ⟨before, t, rfl, hfinal, hwhy.imp_left fun hnone => ?_⟩
      simp [HasBytes, hnone]
  · have hok : (Artifact.writeAll root artifacts d).2.isOk = true ↔
        rest = [] ∧ ∀ t ∈ tried, t.fault = none := by
      rw [hreports.isOk_iff]
      refine ⟨fun h => ⟨?_, h⟩, fun h => h.2⟩
      rcases hrest with ⟨hrest, -⟩ | ⟨before, t, rfl, hfinal⟩
      · exact hrest
      · have hnone := h t (by simp)
        simp [Attempt.isFinal, hnone] at hfinal
    have hwritten : (∀ t ∈ tried, t.fault = none) →
        (Artifact.writeAll root artifacts d).2.written = tried.map fun t => t.artifact.target root := by
      intro h
      rw [hreports.written, List.filter_eq_self.mpr]
      intro t ht
      rw [h t ht]
      rfl
    rw [(concluded o root total lines _).code]
    refine congrArg some (if_congr ?_ rfl rfl)
    rw [hok, and_assoc]
    refine and_congr_right fun _ => and_congr_right fun hall => ?_
    rw [hwritten hall, List.forall_mem_map]

/-- What a run that asks to generate comes to, where `given` is what its arguments ask for. Either
its settings or its description fail, or its description never comes to an end, and the disk stays
as it is; or the artifacts are tried below the root that the arguments, the surroundings, the
settings or else the standard ones ask for. -/
inductive Generates (given : Options) (surroundings : Option Path) (d : Disk) :
    Outcome × Disk → Prop
  | failed (f : Failure) (r : Outcome)
      (reason : settings given d.look = .error f ∨
        ∃ config, settings given d.look = .ok config ∧ description given d.look = .error f)
      (code : r.code = some 1) (told : r.failure = some f) : Generates given surroundings d (r, d)
  | looped (config : Config) (r : Outcome) (asked : settings given d.look = .ok config)
      (unending : Document.Unending (d.look given.document)) (code : r.code = none) :
      Generates given surroundings d (r, d)
  | wrote (config : Config) (spec : Spec) (root : Path) (run : Outcome × Disk)
      (tried : List Attempt) (rest : List Artifact)
      (asked : settings given d.look = .ok config) (described : description given d.look = .ok spec)
      (place : root = ((given.output.or surroundings).or (settingsOutput? given d.look)).getD
        (.ofText "generated"))
      (written : Written root (spec.artifacts config .standard) d run tried rest) :
      Generates given surroundings d run

theorem generate_generates (given : Options) (surroundings : Option Path) (d : Disk) :
    Generates given surroundings d
      (generate { given with output := given.output.or surroundings } d) := by
  rcases hp : plan { given with output := given.output.or surroundings } d.look with
    ⟨lines, f | ⟨root, artifacts⟩⟩
  · have hreason := error_of_plan (congrArg Prod.snd hp)
    rw [generate, hp]
    cases hcode : f.code? with
    | some code =>
      obtain rfl : code = 1 := Failure.eq_one_of_code? hcode
      exact .failed f _ hreason hcode rfl
    | none =>
      obtain rfl := Failure.eq_of_code?_eq_none hcode
      obtain ⟨config, hs, hd⟩ := hreason.resolve_left settings_ne_description
      exact .looped config _ hs (document_unending_iff.mpr hd) hcode
  · obtain ⟨config, spec, hs, hd, hroot, hartifacts⟩ := ok_of_plan (congrArg Prod.snd hp)
    have hnone : (paths []).Nodup := List.nodup_nil
    have hapart : (paths (spec.artifacts config .standard)).Nodup := nodup_paths_putAll hnone
    obtain ⟨tried, rest, hwritten⟩ := written_of_conclude hapart d
    rw [generate, hp, hartifacts]
    refine .wrote config spec root _ tried rest hs hd ?_ hwritten
    rw [hroot, outputDir_of_settings hs]
    cases given.output <;> cases surroundings <;> rfl

/-- A run that asks to generate fails before anything is written, never comes to writing, or tries
the artifacts of its document below the root that comes first. -/
theorem run_generates {given : Options} {args : List String}
    (h : Request.ofArguments none args = .run .generate given) (output : Option String)
    (d : Disk) :
    Generates given (Request.surroundings? output) d (run output args d) := by
  rw [run, Request.ofArguments_eq, h]
  exact generate_generates given (Request.surroundings? output) d

theorem code_fail_eq_none_iff {f : Failure} {l : Lines} :
    (l.fail f).code = none ↔ f = .description .looping := by
  refine ⟨Failure.eq_of_code?_eq_none, ?_⟩
  rintro rfl
  rfl

theorem code_generate_eq_none_iff (o : Options) (d : Disk) :
    (generate o d).1.code = none ↔
      Document.Unending (d.look o.document) ∧ ∃ config, settings o d.look = .ok config := by
  rw [document_unending_iff]
  rcases hp : plan o d.look with ⟨lines, f | ⟨root, artifacts⟩⟩
  · have hplan := congrArg Prod.snd hp
    rw [generate, hp, code_fail_eq_none_iff]
    constructor
    · rintro rfl
      obtain ⟨config, hs, hd⟩ := (error_of_plan hplan).resolve_left settings_ne_description
      exact ⟨hd, config, hs⟩
    · rintro ⟨hd, config, hs⟩
      exact Except.error.inj (hplan.symm.trans (plan_of_description hs hd))
  · have hplan := congrArg Prod.snd hp
    rw [generate, hp]
    dsimp only
    rw [(concluded o root artifacts.length lines _).code]
    refine iff_of_false (Option.some_ne_none _) ?_
    rintro ⟨hd, config, hs⟩
    cases hplan.symm.trans (plan_of_description hs hd)

theorem code_inspect_eq_none_iff (o : Options) (d : Disk) :
    (inspect o d.look).code = none ↔ Document.Unending (d.look o.document) := by
  rw [document_unending_iff, description, inspect]
  cases Document.read (d.look o.document) with
  | error f => simp [code_fail_eq_none_iff]
  | ok tree =>
    dsimp only
    rcases specOf o tree with ⟨lines, f | spec⟩
    · simp [code_fail_eq_none_iff]
    · cases hshown : shown? spec with
      | none => simp [hshown, code_fail_eq_none_iff]
      | some text => simp [hshown, Lines.succeed]

/-- A disk with one file at its top. -/
def diskWith (name text : String) : Disk :=
  ⟨[], [([(Utf8.encode? (ofString name)).getD []],
    .file ((Utf8.encode? (ofString text)).getD []))]⟩

/-- What the arguments `generate d` ask for. -/
def plainRequest : Options :=
  ⟨.ofText "d", none, none, false⟩

/-- A response whose schema is a list of itself. -/
def circling : Disk :=
  diskWith "d" ("paths: \x7b/x: \x7bget: \x7bresponses: \x7b200: " ++
    "\x7bschema: &a \x7btype: array, items: *a\x7d\x7d\x7d\x7d\x7d\x7d")

theorem unending_circling : Document.Unending (circling.look plainRequest.document) := by
  have hcode : (inspect plainRequest circling.look).code = none := by
    decide +kernel
  exact (code_inspect_eq_none_iff plainRequest circling).mp hcode

/-- Two files, below the root that the surroundings ask for; and a run that never comes to
writing. -/
theorem run_generates_empty :
    Request.ofArguments none ["generate", "d"] = .run .generate plainRequest ∧
    (Generates plainRequest (Request.surroundings? (some "o")) (diskWith "d" "paths:\n")
      (run (some "o") ["generate", "d"] (diskWith "d" "paths:\n")) ∧
    (run (some "o") ["generate", "d"] (diskWith "d" "paths:\n")).1.code = some 0) ∧
    Generates plainRequest (Request.surroundings? none) circling
      (run none ["generate", "d"] circling) ∧
    (run none ["generate", "d"] circling).1.code = none := by
  have hasked : Request.ofArguments none ["generate", "d"] = .run .generate plainRequest := by
    decide +kernel
  have hrun : run none ["generate", "d"] circling = generate plainRequest circling := by
    rw [run, hasked]
  have hcircling : (run none ["generate", "d"] circling).1.code = none := by
    rw [hrun, code_generate_eq_none_iff]
    exact ⟨unending_circling, .standard, rfl⟩
  exact ⟨hasked, ⟨run_generates hasked (some "o") _, by decide +kernel⟩,
    run_generates hasked none _, hcircling⟩

/-- A summary that spells a character by the two halves of a pair, as documents do that hold
nothing but ASCII. -/
def halves : Disk :=
  diskWith "d" "paths:\n  /x:\n    get:\n      summary: \"\\ud83d\\ude00\"\n      operationId: g\n"

/-- The hook of such a function has no bytes, and the index behind it is never tried. -/
theorem not_tries_halves :
    ∃ root artifacts, (plan plainRequest halves.look).2 = .ok (root, artifacts) ∧
      (run none ["generate", "d"] halves).1.failure = some (.stopped .unencodable) ∧
      ∀ tried, artifacts = tried.map (·.artifact) →
        ¬ Tries root halves tried (run none ["generate", "d"] halves).2 := by
  have hleft : (plan plainRequest halves.look).2.toOption.any (fun planned =>
      triedAll planned.1 planned.2 halves != (run none ["generate", "d"] halves).2) = true := by
    decide +kernel
  obtain ⟨⟨root, artifacts⟩, hplanned, hne⟩ := (Option.any_eq_true _ _).mp hleft
  have hplan : (plan plainRequest halves.look).2 = .ok (root, artifacts) := by
    cases hp : (plan plainRequest halves.look).2 with
    | error f =>
      rw [hp] at hplanned
      cases hplanned
    | ok planned =>
      rw [hp] at hplanned
      cases hplanned
      rfl
  refine ⟨root, artifacts, hplan, by decide +kernel, fun tried hall htries => ?_⟩
  rw [htries.left_eq, ← hall, bne_self_eq_false] at hne
  cases hne

end Command
end ApiScaffold
