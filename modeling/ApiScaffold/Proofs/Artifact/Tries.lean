import ApiScaffold.Artifact.Report
import ApiScaffold.Proofs.Disk.Naming
import ApiScaffold.Proofs.Disk.Places
import Mathlib.Logic.Basic

namespace ApiScaffold.Artifact
variable {root : Path} {d left : Disk} {artifacts : List Artifact}

/-- An artifact that was tried, and what kept it from being written, if anything did. -/
structure Attempt where
  artifact : Artifact
  fault : Option Disk.Fault
  deriving DecidableEq, Repr

namespace Attempt

/-- What no disk can hold is not tried again, and neither is what comes after it. -/
def isFinal (t : Attempt) : Bool :=
  t.fault.any Disk.Fault.isFinal

/-- What a report holds against an artifact. -/
def failure? (root : Path) (t : Attempt) : Option (Text × Path × Disk.Fault) :=
  (t.fault.filter fun f => !f.isFinal).map fun f => (t.artifact.path, t.artifact.target root, f)

end Attempt

open Attempt

/-- Artifacts are tried below a root one after the other, each of them once and on the disk that
the one before it left. -/
inductive Tries (root : Path) : Disk → List Attempt → Disk → Prop
  | done (d : Disk) : Tries root d [] d
  | next {d made left : Disk} {t : Attempt} {rest : List Attempt}
      (first : d.writeText (t.artifact.target root) t.artifact.text = (made, t.fault))
      (others : Tries root made rest left) : Tries root d (t :: rest) left

/-- A disk on which every artifact was tried. -/
def triedAll (root : Path) (artifacts : List Artifact) (d : Disk) : Disk :=
  artifacts.foldl (fun d a => (d.writeText (a.target root) a.text).1) d

theorem Tries.left_eq {tried : List Attempt} (h : Tries root d tried left) :
    left = triedAll root (tried.map (·.artifact)) d := by
  induction h with
  | done => rfl
  | next first _ ih =>
    rw [ih, List.map_cons, triedAll, triedAll, List.foldl_cons, first]

/-- What no disk can hold is a text without bytes, or has a name that no file can have. -/
theorem Tries.not_nameable {tried : List Attempt} (h : Tries root d tried left) {t : Attempt}
    (ht : t ∈ tried) (hfinal : t.isFinal = true) :
    Text.Utf8.encode? t.artifact.text = none ∨ ¬ (t.artifact.target root).Nameable := by
  induction h with
  | done => cases ht
  | next first _ ih =>
    rcases List.mem_cons.mp ht with rfl | ht
    · obtain ⟨f, hf, hfinal⟩ := (Option.any_eq_true _ _).mp hfinal
      exact Disk.not_nameable_of_isFinal ((congrArg Prod.snd first).trans hf) hfinal
    · exact ih ht

/-- What a report tells of the artifacts that were tried. -/
structure Reports (root : Path) (tried : List Attempt) (r : WriteReport) : Prop where
  written : r.written = (tried.filter (·.fault.isNone)).map (·.artifact.target root)
  failed : r.failed = tried.filterMap (failure? root)
  stopped : r.stopped = tried.findSome? fun t => t.fault.filter Disk.Fault.isFinal

theorem Reports.add {tried : List Attempt} {r : WriteReport} (h : Reports root tried r)
    {t : Attempt} (ht : t.isFinal = false) :
    Reports root (t :: tried) (r.add t.artifact (t.artifact.target root) t.fault) := by
  obtain ⟨artifact, fault⟩ := t
  cases fault with
  | none =>
    refine ⟨?_, h.failed, h.stopped⟩
    simp [WriteReport.add, h.written]
  | some f =>
    have hf : f.isFinal = false := ht
    refine ⟨?_, ?_, ?_⟩
    · simp [WriteReport.add, h.written]
    · simp [WriteReport.add, failure?, Option.filter, hf, h.failed]
    · simp [WriteReport.add, hf, h.stopped]

/-- Everything that was tried was written just when the report holds nothing against any of it. -/
theorem Reports.isOk_iff {tried : List Attempt} {r : WriteReport} (h : Reports root tried r) :
    r.isOk = true ↔ ∀ t ∈ tried, t.fault = none := by
  have hone : ∀ t : Attempt, t.fault = none ↔
      failure? root t = none ∧ t.fault.filter Disk.Fault.isFinal = none := by
    intro t
    cases hf : t.fault with
    | none => simp [failure?, hf]
    | some f => cases hfinal : f.isFinal <;> simp [failure?, hf, hfinal]
  simp only [WriteReport.isOk, h.failed, h.stopped, Bool.and_eq_true, List.isEmpty_iff,
    Option.isNone_iff_eq_none, List.filterMap_eq_nil_iff, List.findSome?_eq_none_iff, hone]
  exact forall₂_and.symm

/-- How far the writing comes: all artifacts are tried in their order, or a first part of them up to
one that no disk can hold. -/
theorem writeAll_tries (root : Path) (artifacts : List Artifact) (d : Disk) :
    ∃ tried rest, artifacts = tried.map (·.artifact) ++ rest ∧
      Tries root d tried (writeAll root artifacts d).1 ∧
      Reports root tried (writeAll root artifacts d).2 ∧
      ((rest = [] ∧ ∀ t ∈ tried, t.isFinal = false) ∨
        ∃ before t, tried = before ++ [t] ∧ t.isFinal = true) := by
  induction artifacts generalizing d with
  | nil => exact ⟨[], [], rfl, .done d, ⟨rfl, rfl, rfl⟩, .inl ⟨rfl, by simp⟩⟩
  | cons a others ih =>
    rcases hwrite : d.writeText (a.target root) a.text with ⟨made, fault⟩
    let t : Attempt := ⟨a, fault⟩
    cases hfinal : t.isFinal with
    | true =>
      have hall : writeAll root (a :: others) d =
          (made, { WriteReport.empty with stopped := fault }) := by
        simp only [writeAll, hwrite]
        exact if_pos hfinal
      obtain ⟨f, rfl, hf⟩ := (Option.any_eq_true _ _).mp hfinal
      rw [hall]
      refine ⟨[t], others, rfl, .next hwrite (.done made), ⟨rfl, ?_, ?_⟩,
        .inr ⟨[], t, rfl, hfinal⟩⟩
      · simp [WriteReport.empty, failure?, t, hf]
      · simp [t, Option.filter, hf]
    | false =>
      obtain ⟨tried, rest, hparts, htries, hreports, hrest⟩ := ih made
      have hall : writeAll root (a :: others) d =
          ((writeAll root others made).1,
            (writeAll root others made).2.add a (a.target root) fault) := by
        simp only [writeAll, hwrite]
        exact if_neg (by simpa [Attempt.isFinal, t] using hfinal)
      rw [hall]
      refine ⟨t :: tried, rest, by simp [hparts, t], .next hwrite htries, hreports.add hfinal, ?_⟩
      rcases hrest with ⟨rfl, hall⟩ | ⟨before, last, rfl, hlast⟩
      · exact .inl ⟨rfl, List.forall_mem_cons.mpr ⟨hfinal, hall⟩⟩
      · exact .inr ⟨t :: before, last, rfl, hlast⟩

section Overlay
open Disk
variable {root : Path} {base : Place} {d made left : Disk} {t : Attempt}

namespace Attempt

/-- What an attempt leaves as the content of a file: the whole text, if it was written. A text that
has no bytes leaves the file empty, if it has a path. -/
def content? (root : Path) (t : Attempt) : Option (List UInt8) :=
  match Text.Utf8.encode? t.artifact.text with
  | some bytes => if t.fault = none then some bytes else none
  | none =>
    if t.fault = some .unencodable ∧ (t.artifact.target root).Nameable then some [] else none

/-- The files after an attempt. -/
def overlay (root : Path) (base : Place) (files : Place → Option (List UInt8)) (t : Attempt) :
    Place → Option (List UInt8) :=
  match t.content? root, (t.artifact.target root).place? base with
  | some bytes, some l => Function.update files l (some bytes)
  | _, _ => files

/-- An attempt that failed changes the content of no file, unless its text has no bytes. -/
theorem overlay_of_failed {bytes : List UInt8}
    (hbytes : Text.Utf8.encode? t.artifact.text = some bytes) (h : t.fault ≠ none)
    (files : Place → Option (List UInt8)) : t.overlay root base files = files := by
  simp [overlay, content?, hbytes, h]

end Attempt

/-- An attempt has on the files of the disk the effect that its fault tells. -/
theorem file?_writeText
    (h : d.writeText (t.artifact.target root) t.artifact.text = (made, t.fault)) :
    made.base = d.base ∧ made.file? = t.overlay root d.base d.file? := by
  rw [writeText] at h
  cases hbytes : Text.Utf8.encode? t.artifact.text with
  | some bytes =>
    rw [hbytes] at h
    have hwrites := writes_write d (t.artifact.target root) bytes
    rw [show d.write (t.artifact.target root) bytes = (made, t.fault) from h] at hwrites
    cases hfault : t.fault with
    | none =>
      rw [hfault] at hwrites
      cases hwrites with
      | written _ l named place base files =>
        exact ⟨base, by simp [Attempt.overlay, Attempt.content?, hbytes, hfault, place, files]⟩
    | some f =>
      rw [hfault] at hwrites
      cases hwrites with
      | failed _ _ keeps =>
        refine ⟨keeps.base, ?_⟩
        rw [t.overlay_of_failed hbytes (by simp [hfault]), keeps.files]
  | none =>
    rw [hbytes] at h
    rcases hwrite : d.write (t.artifact.target root) [] with ⟨w, fault⟩
    have hwrites := writes_write d (t.artifact.target root) []
    rw [hwrite] at h hwrites
    simp only [Prod.mk.injEq] at h
    obtain ⟨rfl, hfault⟩ := h
    cases hwrites with
    | written _ l named place base files =>
      refine ⟨base, ?_⟩
      simp [Attempt.overlay, Attempt.content?, hbytes, ← hfault, named, place, files]
    | failed _ f keeps =>
      -- With a path that can be named the fault is one of the disk, so it is not this one.
      have hnone : t.content? root = none := by
        simp only [Attempt.content?, hbytes, ← hfault, Option.getD_some, ite_eq_right_iff]
        rintro ⟨he, hnamed⟩
        cases he
        have := isFinal_of_write hnamed (congrArg Prod.snd hwrite)
        cases this
      exact ⟨keeps.base, by simp [Attempt.overlay, hnone, keeps.files]⟩

/-- What a run of attempts leaves is the files there were, overlaid with the texts that were
written, in their order. -/
theorem Tries.file?_eq {tried : List Attempt} (h : Tries root d tried left) :
    left.base = d.base ∧
      left.file? = tried.foldl (Attempt.overlay root d.base) d.file? := by
  induction h with
  | done => exact ⟨rfl, rfl⟩
  | next first _ ih =>
    obtain ⟨hbase, hfiles⟩ := file?_writeText first
    rw [ih.1, ih.2, hbase, hfiles]
    exact ⟨rfl, rfl⟩

/-- Where nothing is tried that no disk can hold, each attempt is listed as written or as failed. -/
theorem Reports.listed {tried : List Attempt} {r : WriteReport} (h : Reports root tried r)
    (hall : ∀ t ∈ tried, t.isFinal = false) :
    r.stopped = none ∧ r.written.length + r.failed.length = tried.length := by
  rw [h.stopped, h.written, h.failed, List.length_map]
  clear h
  induction tried with
  | nil => exact ⟨rfl, rfl⟩
  | cons t tried ih =>
    obtain ⟨ht, hrest⟩ := List.forall_mem_cons.mp hall
    obtain ⟨hstopped, hlength⟩ := ih hrest
    cases hfault : t.fault with
    | none =>
      simp only [List.findSome?_cons, hfault, Option.filter_none, hstopped, List.filter_cons,
        Option.isNone_none, if_true, List.length_cons, Attempt.failure?, List.filterMap_cons,
        Option.map_none, true_and]
      omega
    | some f =>
      have hf : f.isFinal = false := by simpa [Attempt.isFinal, hfault] using ht
      simp only [List.findSome?_cons, hfault, Option.filter_some, hf, hstopped, List.filter_cons,
        Option.isNone_some, Attempt.failure?, List.filterMap_cons, List.length_cons]
      simp
      omega

/-- What becomes of a disk on which artifacts are to be written. The attempts are made in the order
of the artifacts, each of them once, and the files are those there were, overlaid with what was
written. Either every artifact is tried and listed as written or as failed, or nothing is tried
behind one that no disk can hold, as it has no bytes or no path that can be named. -/
structure Overlays (root : Path) (artifacts : List Artifact) (d left : Disk) (r : WriteReport)
    (tried : List Attempt) (rest : List Artifact) : Prop where
  parts : artifacts = tried.map (·.artifact) ++ rest
  reports : Reports root tried r
  files : left.file? = tried.foldl (Attempt.overlay root d.base) d.file?
  stops : (rest = [] ∧ r.stopped = none ∧ r.written.length + r.failed.length = artifacts.length) ∨
    ∃ before t, tried = before ++ [t] ∧ t.isFinal = true ∧
      (Text.Utf8.encode? t.artifact.text = none ∨ ¬ (t.artifact.target root).Nameable)

theorem writeAll_overlays (root : Path) (artifacts : List Artifact) (d : Disk) :
    ∃ tried rest, Overlays root artifacts d (writeAll root artifacts d).1
      (writeAll root artifacts d).2 tried rest := by
  obtain ⟨tried, rest, hparts, htries, hreports, hrest⟩ := writeAll_tries root artifacts d
  refine ⟨tried, rest, hparts, hreports, htries.file?_eq.2, ?_⟩
  rcases hrest with ⟨rfl, hall⟩ | ⟨before, t, rfl, hfinal⟩
  · obtain ⟨hstopped, hlength⟩ := hreports.listed hall
    refine .inl ⟨rfl, hstopped, ?_⟩
    rw [hlength, hparts, List.append_nil, List.length_map]
  · exact .inr ⟨before, t, rfl, hfinal, htries.not_nameable (by simp) hfinal⟩

/-- Two texts, of which the first has no bytes. -/
def halfAndWhole : List Artifact :=
  [⟨"a.sql", [.surrogate 0]⟩, ⟨"b.sql", "SELECT 1;\n"⟩]

/-- The file that a path names. -/
def fileNamed (d : Disk) (p : Path) : Option (List UInt8) :=
  (p.place? d.base).bind d.file?

/-- The first is listed nowhere and leaves an empty file, and the second is never tried. -/
theorem writeAll_halfAndWhole :
    (writeAll (.ofText "out") halfAndWhole ⟨[], []⟩).2 = ⟨[], [], some .unencodable⟩ ∧
      fileNamed (writeAll (.ofText "out") halfAndWhole ⟨[], []⟩).1 (.ofText "out/a.sql") = some [] ∧
      fileNamed (writeAll (.ofText "out") halfAndWhole ⟨[], []⟩).1 (.ofText "out/b.sql") =
        none := by
  decide +kernel

end Overlay
end ApiScaffold.Artifact
