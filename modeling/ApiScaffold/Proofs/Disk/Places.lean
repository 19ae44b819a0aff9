import ApiScaffold.Proofs.Disk.Naming
import Mathlib.Logic.Function.Basic

namespace ApiScaffold
open Text.Utf8

namespace CodePoint
variable {c : CodePoint}

theorem nameable_of_bytes {bytes : List UInt8} (h : encodePoint? c = some bytes)
    (hzero : 0 ∉ bytes) : c.Nameable := by
  refine ⟨by simp [h], ?_⟩
  rintro rfl
  cases h
  exact hzero (by decide)

end CodePoint

theorem nameable_of_encodeName {t : Text} {bytes : List UInt8} (h : encodeName? t = some bytes)
    (hzero : 0 ∉ bytes) : ∀ c ∈ t, c.Nameable := by
  induction t generalizing bytes with
  | nil => simp
  | cons c rest ih =>
    simp only [encodeName?, List.mapM_cons] at h
    cases hfirst : encodePoint? c with
    | none => simp [hfirst] at h
    | some first =>
      cases hrest : rest.mapM encodePoint? with
      | none => simp [hfirst, hrest] at h
      | some others =>
        simp only [hfirst, hrest, Option.bind_eq_bind, Option.bind_some, Option.pure_def,
          Option.map_some, Option.some.injEq, List.flatten_cons] at h
        rw [← h, List.mem_append, not_or] at hzero
        have hothers : encodeName? rest = some others.flatten := by simp [encodeName?, hrest]
        exact List.forall_mem_cons.mpr
          ⟨CodePoint.nameable_of_bytes hfirst hzero.1, ih hothers hzero.2⟩

theorem Text.subset_joined {between t : Text} {ts : List Text} (h : t ∈ ts) :
    t ⊆ Text.joined between ts := by
  obtain ⟨first, more, rfl⟩ := List.exists_cons_of_ne_nil (List.ne_nil_of_mem h)
  rw [Text.joined, Text.intercalate_cons_eq_append_flatMap]
  rcases List.mem_cons.mp h with rfl | h
  · exact List.subset_append_left _ _
  · refine List.subset_append_of_subset_right _ fun c hc => ?_
    exact List.mem_flatMap.mpr ⟨t, h, List.mem_append_right _ hc⟩

/-- The place that a name leads to, by the name alone. -/
def Place.enter (here : Place) (name : List UInt8) : Place :=
  if name = Disk.upward then here.dropLast else here ++ [name]

/-- The place that a path names, whatever stands on the way to it. -/
def Path.place? (base : Place) (p : Path) : Option Place :=
  (p.parts.mapM encodeName?).map fun names =>
    names.foldl Place.enter (if p.anchor = .relative then base else [])

namespace Disk
variable {d made : Disk} {p : Path} {l here : Place} {f : Fault} {bytes : List UInt8}

/-- The content of the file at a place. -/
def file? (d : Disk) (l : Place) : Option (List UInt8) :=
  match d.get? l with
  | some (.file bytes) => some bytes
  | _ => none

/-- Relative paths begin where they did, and every file has the content that it had. -/
structure KeepsFiles (d made : Disk) : Prop where
  base : made.base = d.base
  files : made.file? = d.file?

theorem KeepsFiles.refl (d : Disk) : KeepsFiles d d :=
  ⟨rfl, rfl⟩

theorem KeepsFiles.trans {d e f : Disk} (h : KeepsFiles d e) (h' : KeepsFiles e f) :
    KeepsFiles d f :=
  ⟨h'.base.trans h.base, h'.files.trans h.files⟩

theorem place_of_follow {names : Place} (h : d.follow here names = .ok l) :
    l = names.foldl Place.enter here := by
  induction names generalizing here with
  | nil =>
    cases h
    rfl
  | cons name rest ih =>
    rw [follow] at h
    rw [List.foldl_cons, Place.enter]
    split at h
    · cases h
    · cases h
    · split at h
      · rename_i hup
        rw [if_pos hup]
        exact ih h
      · rename_i hup
        rw [if_neg hup]
        split at h
        · cases h
        · exact ih h

/-- A path leads to the place that it names, or nowhere. -/
theorem place_of_locate (h : d.locate p = .ok l) : p.place? d.base = some l := by
  rw [locate] at h
  split at h
  · rename_i names _ hnames
    split at h
    · cases h
    · split at h
      · cases h
      · rw [Path.place?, hnames, place_of_follow h]
        rfl
  · cases h

/-- What leads to a place can be the name of a file. -/
theorem nameable_of_locate (h : d.locate p = .ok l) : p.Nameable := by
  rw [locate] at h
  split at h
  · rename_i bytes names htext hnames
    split at h
    · cases h
    · rename_i hzero
      have hall := nameable_of_encodeName htext (by simpa using hzero)
      intro part hpart c hc
      have hne : ¬ (p.anchor = .relative ∧ p.parts = []) := by
        rintro ⟨-, hnone⟩
        rw [hnone] at hpart
        cases hpart
      refine hall c ?_
      rw [Path.text, if_neg hne]
      exact List.mem_append_right _ (Text.subset_joined hpart hc)
  · cases h

theorem file?_put (hl : l ≠ []) (e : Entry) (l' : Place) :
    (d.put l e).file? l' =
      if l = l' then (match e with | .file bytes => some bytes | .directory => none)
      else d.file? l' := by
  rw [file?, get?_put d l l' e hl]
  by_cases h : l = l'
  · rw [if_pos h, if_pos h]
    cases e <;> rfl
  · rw [if_neg h, if_neg h]
    rfl

/-- A directory is made where nothing stood. -/
theorem keepsFiles_of_makeDirectory (h : d.makeDirectory p = .ok made) : KeepsFiles d made := by
  rw [makeDirectory] at h
  cases hl : d.locate p with
  | error f =>
    rw [hl] at h
    cases h
  | ok l =>
    simp only [hl, bind, Except.bind] at h
    split at h
    · cases h
    · rename_i hfree
      cases h
      have hnone : d.get? l = none := by simpa using hfree
      have hne : l ≠ [] := by
        rintro rfl
        cases hnone
      refine ⟨rfl, funext fun l' => ?_⟩
      rw [file?_put hne]
      split
      · rename_i he
        rw [← he, file?, hnone]
      · rfl

theorem keepsFiles_ensureDirectory (d : Disk) (p : Path) :
    KeepsFiles d (d.ensureDirectory p).1 := by
  rw [ensureDirectory]
  split
  · rename_i hmade
    exact keepsFiles_of_makeDirectory hmade
  · exact .refl d

/-- Directories that were made before a fault change no file either. -/
theorem keepsFiles_makeDirectories (d : Disk) (p : Path) :
    KeepsFiles d (d.makeDirectories p).1 := by
  induction p using makeDirectories.induct d with
  | case1 p hlacks made hparent ih =>
    rw [makeDirectories, dif_pos hlacks, hparent]
    rw [hparent] at ih
    exact ih.trans (keepsFiles_ensureDirectory made p)
  | case2 p hlacks hparent ih =>
    have hfailed : d.makeDirectories p = d.makeDirectories p.parent := by
      rw [makeDirectories, dif_pos hlacks]
      split
      · rename_i made hmade
        exact absurd hmade (hparent made)
      · rfl
    rw [hfailed]
    exact ih
  | case3 p hthere =>
    rw [makeDirectories, dif_neg hthere]
    exact keepsFiles_ensureDirectory d p

/-- A created file stands at the place that its path names. -/
theorem file?_of_create (h : d.create p bytes = .ok made) :
    made.base = d.base ∧ ∃ l, d.locate p = .ok l ∧
      made.file? = Function.update d.file? l (some bytes) := by
  rw [create] at h
  cases hl : d.locate p with
  | error f =>
    rw [hl] at h
    cases h
  | ok l =>
    simp only [hl, bind, Except.bind] at h
    split at h
    · cases h
    · rename_i hfile
      cases h
      have hne : l ≠ [] := by
        rintro rfl
        exact hfile rfl
      refine ⟨rfl, l, rfl, funext fun l' => ?_⟩
      rw [file?_put hne, Function.update_apply]
      simp only [eq_comm]

/-- What a write comes to: one file is changed, at the place that the path names, or the write fails
and changes none. -/
inductive Writes (d : Disk) (p : Path) (bytes : List UInt8) : Disk × Option Fault → Prop
  | written (made : Disk) (l : Place) (named : p.Nameable) (place : p.place? d.base = some l)
      (base : made.base = d.base) (files : made.file? = Function.update d.file? l (some bytes)) :
      Writes d p bytes (made, none)
  | failed (made : Disk) (f : Fault) (keeps : KeepsFiles d made) :
      Writes d p bytes (made, some f)

theorem writes_write (d : Disk) (p : Path) (bytes : List UInt8) :
    Writes d p bytes (d.write p bytes) := by
  have hkeeps := keepsFiles_makeDirectories d p.parent
  rw [write]
  split
  · rename_i made hmade
    rw [hmade] at hkeeps
    split
    · rename_i written hcreate
      obtain ⟨hbase, l, hl, hfiles⟩ := file?_of_create hcreate
      rw [hkeeps.files] at hfiles
      refine .written written l (nameable_of_locate hl) ?_ (hbase.trans hkeeps.base) hfiles
      rw [← hkeeps.base]
      exact place_of_locate hl
    · exact .failed made _ hkeeps
  · rename_i failed hfailed
    rcases hmade : d.makeDirectories p.parent with ⟨made, _ | f⟩
    · exact absurd hmade (hfailed made)
    · rw [hmade] at hkeeps
      exact .failed made f hkeeps

end Disk
end ApiScaffold
