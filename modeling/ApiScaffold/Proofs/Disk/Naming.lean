import ApiScaffold.Disk
import ApiScaffold.Proofs.Text.Pieces
import Mathlib.Tactic.SplitIfs

namespace ApiScaffold
open Text.Utf8

/-- Every byte of a longer form is at least 128, and the shorter ones are the characters. -/
theorem eq_nul_of_zero_mem_utf8EncodeChar {c : Char} (h : 0 ∈ String.utf8EncodeChar c) :
    c = '\x00' := by
  have hzero : c.val.toNat = 0 := by
    simp only [String.utf8EncodeChar] at h
    split_ifs at h
    all_goals
      simp only [List.mem_cons, List.not_mem_nil, or_false, ← UInt8.toNat_inj,
        UInt8.toNat_ofNat', UInt8.toNat_zero] at h
      omega
  exact Char.ext (UInt32.toNat_inj.mp hzero)

namespace CodePoint
variable {c : CodePoint}

/-- Whether a code point can stand in the name of a file. -/
def Nameable (c : CodePoint) : Prop :=
  (encodePoint? c).isSome ∧ c ≠ .char '\x00'

instance : Decidable c.Nameable :=
  inferInstanceAs (Decidable (_ ∧ _))

theorem Nameable.bytes (h : c.Nameable) : ∃ bytes, encodePoint? c = some bytes ∧ 0 ∉ bytes := by
  obtain ⟨bytes, hbytes⟩ := Option.isSome_iff_exists.mp h.1
  refine ⟨bytes, hbytes, fun hzero => ?_⟩
  cases c with
  | char c =>
    cases hbytes
    exact h.2 (congrArg CodePoint.char (eq_nul_of_zero_mem_utf8EncodeChar hzero))
  | surrogate n =>
    simp only [encodePoint?] at hbytes
    split at hbytes
    · cases hbytes
      simp only [List.mem_singleton, ← UInt8.toNat_inj, UInt8.toNat_ofNat', UInt8.toNat_zero]
        at hzero
      omega
    · cases hbytes

end CodePoint

theorem Text.Utf8.encodeName_of_nameable {t : Text} (h : ∀ c ∈ t, c.Nameable) :
    ∃ bytes, encodeName? t = some bytes ∧ 0 ∉ bytes := by
  induction t with
  | nil => exact ⟨[], rfl, List.not_mem_nil⟩
  | cons c rest ih =>
    obtain ⟨first, hfirst, hzero⟩ := (h c List.mem_cons_self).bytes
    obtain ⟨others, hothers, hzeros⟩ := ih fun c hc => h c (List.mem_cons_of_mem _ hc)
    obtain ⟨parts, hparts, rfl⟩ := Option.map_eq_some_iff.mp hothers
    refine ⟨first ++ parts.flatten, ?_, ?_⟩
    · simp [encodeName?, List.mapM_cons, hfirst, hparts]
    · exact fun hm => (List.mem_append.mp hm).elim hzero hzeros

theorem Text.mem_joined {c : CodePoint} {between : Text} {ts : List Text}
    (h : c ∈ Text.joined between ts) : c ∈ between ∨ ∃ t ∈ ts, c ∈ t := by
  cases ts with
  | nil => cases h
  | cons t ts =>
    rw [Text.joined, Text.intercalate_cons_eq_append_flatMap, List.mem_append,
      List.mem_flatMap] at h
    rcases h with h | ⟨u, hu, h⟩
    · exact .inr ⟨t, List.mem_cons_self, h⟩
    · rcases List.mem_append.mp h with h | h
      · exact .inl h
      · exact .inr ⟨u, List.mem_cons_of_mem _ hu, h⟩

namespace Path
variable {p : Path}

/-- Whether every name on the path can be the name of a file. -/
def Nameable (p : Path) : Prop :=
  ∀ part ∈ p.parts, ∀ c ∈ part, c.Nameable

instance : Decidable p.Nameable :=
  inferInstanceAs (Decidable (∀ part ∈ p.parts, ∀ c ∈ part, c.Nameable))

theorem Nameable.parent (h : p.Nameable) : p.parent.Nameable :=
  fun part hpart => h part (List.dropLast_subset _ hpart)

theorem Nameable.text (h : p.Nameable) : ∀ c ∈ p.text, c.Nameable := by
  intro c hc
  rw [Path.text] at hc
  split at hc
  · cases List.mem_singleton.mp hc
    decide
  · rcases List.mem_append.mp hc with hanchor | hparts
    · have hall : ∀ c ∈ Text.ofString (Anchor.text p.anchor), c.Nameable := by
        cases p.anchor <;> decide
      exact hall c hanchor
    · rcases Text.mem_joined hparts with hslash | ⟨part, hpart, hc⟩
      · cases List.mem_singleton.mp hslash
        decide
      · exact h part hpart c hc

theorem Nameable.encoded (h : p.Nameable) :
    (∃ bytes, encodeName? p.text = some bytes ∧ 0 ∉ bytes) ∧
    ∃ names, p.parts.mapM encodeName? = some names := by
  refine ⟨encodeName_of_nameable h.text, ?_⟩
  rw [Nameable] at h
  generalize p.parts = parts at h
  induction parts with
  | nil => exact ⟨[], rfl⟩
  | cons part rest ih =>
    obtain ⟨name, hname, -⟩ := encodeName_of_nameable (h part List.mem_cons_self)
    obtain ⟨names, hnames⟩ := ih fun part hpart => h part (List.mem_cons_of_mem _ hpart)
    exact ⟨name :: names, by simp [List.mapM_cons, hname, hnames]⟩

end Path

namespace Disk
variable {d : Disk} {p : Path} {f : Fault} {t : Text}

theorem isFinal_of_follow {here names : Place} (h : d.follow here names = .error f) :
    f.isFinal = false := by
  induction names generalizing here with
  | nil => cases h
  | cons name rest ih =>
    rw [follow] at h
    split at h
    · cases h
      rfl
    · cases h
      rfl
    · split at h
      · exact ih h
      · split at h
        · cases h
          rfl
        · exact ih h

theorem isFinal_of_locate (hp : p.Nameable) (h : d.locate p = .error f) : f.isFinal = false := by
  obtain ⟨⟨bytes, hbytes, hzero⟩, names, hnames⟩ := hp.encoded
  simp only [locate, hbytes, hnames, List.contains_iff_mem, if_neg hzero] at h
  split at h
  · cases h
    rfl
  · exact isFinal_of_follow h

theorem isFinal_of_ensureDirectory (hp : p.Nameable) (h : (d.ensureDirectory p).2 = some f) :
    f.isFinal = false := by
  rw [ensureDirectory] at h
  split at h
  · cases h
  · rename_i g hmake
    split at h
    · cases h
    · cases h
      rw [makeDirectory] at hmake
      cases hl : d.locate p with
      | error g =>
        rw [hl] at hmake
        cases hmake
        exact isFinal_of_locate hp hl
      | ok l =>
        simp only [hl, bind, Except.bind] at hmake
        split at hmake <;> cases hmake
        rfl

theorem isFinal_of_makeDirectories (hp : p.Nameable) (h : (d.makeDirectories p).2 = some f) :
    f.isFinal = false := by
  induction p using makeDirectories.induct d with
  | case1 p hlacks made hparent ih =>
    rw [makeDirectories, dif_pos hlacks, hparent] at h
    exact isFinal_of_ensureDirectory hp h
  | case2 p hlacks hparent ih =>
    have hfailed : (d.makeDirectories p).2 = (d.makeDirectories p.parent).2 := by
      rw [makeDirectories, dif_pos hlacks]
      split
      · rename_i made hmade
        exact absurd hmade (hparent made)
      · rfl
    exact ih hp.parent (hfailed ▸ h)
  | case3 p hthere =>
    rw [makeDirectories, dif_neg hthere] at h
    exact isFinal_of_ensureDirectory hp h

theorem isFinal_of_create {bytes : List UInt8} (hp : p.Nameable)
    (h : d.create p bytes = .error f) : f.isFinal = false := by
  rw [create] at h
  cases hl : d.locate p with
  | error g =>
    rw [hl] at h
    cases h
    exact isFinal_of_locate hp hl
  | ok l =>
    simp only [hl, bind, Except.bind] at h
    split at h <;> cases h
    rfl

theorem isFinal_of_write {bytes : List UInt8} (hp : p.Nameable)
    (h : (d.write p bytes).2 = some f) : f.isFinal = false := by
  rw [write] at h
  split at h
  · split at h
    · cases h
    · rename_i hcreate
      cases h
      exact isFinal_of_create hp hcreate
  · rename_i failed hfailed
    exact isFinal_of_makeDirectories hp.parent h

/-- Only a text that has no bytes, or a path with a name that no file can have, is what no disk can
hold. -/
theorem not_nameable_of_isFinal (h : (d.writeText p t).2 = some f) (hf : f.isFinal = true) :
    encode? t = none ∨ ¬ p.Nameable := by
  cases ht : encode? t with
  | none => exact .inl rfl
  | some bytes =>
    refine .inr fun hp => ?_
    rw [writeText, ht] at h
    rw [isFinal_of_write hp h] at hf
    cases hf

end Disk
end ApiScaffold
