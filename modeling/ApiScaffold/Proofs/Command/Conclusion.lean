import ApiScaffold.Command.Run
import Mathlib.Data.List.TakeWhile
import Mathlib.Tactic.Tauto

namespace ApiScaffold

namespace Text
variable {s t : Text}

/-- Whether a text has bytes. -/
def HasBytes (t : Text) : Prop :=
  (Utf8.encode? t).isSome

instance : Decidable (HasBytes t) :=
  inferInstanceAs (Decidable (_ = true))

theorem isSome_chars_iff : (chars? t).isSome ↔ HasBytes t := by
  rw [HasBytes, Utf8.encode?, Option.isSome_map]

theorem hasBytes_iff : HasBytes t ↔ ∀ c ∈ t, c.char?.isSome := by
  rw [← isSome_chars_iff]
  induction t with
  | nil => simp [chars?]
  | cons c rest ih =>
    rw [List.forall_mem_cons, ← ih, chars?, chars?, List.mapM_cons]
    cases c.char? with
    | none => simp
    | some d => cases List.mapM CodePoint.char? rest <;> simp

theorem hasBytes_append : HasBytes (s ++ t) ↔ HasBytes s ∧ HasBytes t := by
  simp only [hasBytes_iff, List.forall_mem_append]

theorem hasBytes_ofString (s : String) : HasBytes (ofString s) := by
  rw [← isSome_chars_iff, ofString, chars?_ofChars]
  rfl

end Text

namespace Command
open Text
variable {o : Options} {root : Path} {total : Nat} {lines : Lines} {r : WriteReport}

theorem sayAll_eq_none_iff {told : List Text} :
    (lines.sayAll told).2 = none ↔ ∀ line ∈ told, HasBytes line := by
  have hall : (∀ line ∈ told, HasBytes line) ↔
      (told.takeWhile fun line => (chars? line).isSome) = told := by
    simp only [← isSome_chars_iff, List.takeWhile_eq_self_iff]
  rw [hall]
  simp only [Lines.sayAll]
  constructor
  · intro h
    split at h
    · cases h
    · rename_i hlength
      exact (List.takeWhile_prefix _).eq_of_length
        (Nat.le_antisymm (List.takeWhile_prefix _).length_le (Nat.not_lt.mp hlength))
  · intro h
    rw [h, if_neg (Nat.lt_irrefl _)]

theorem eq_of_sayAll {told : List Text} {f : Failure} (h : (lines.sayAll told).2 = some f) :
    f = .stopped .unencodable := by
  simp only [Lines.sayAll] at h
  split at h
  · cases h
    rfl
  · cases h

/-- Whether the places of everything that was written can be told, and the root if nothing
failed. -/
def Tellable (root : Path) (r : WriteReport) : Prop :=
  (∀ p ∈ r.written, HasBytes p.text) ∧ (r.failed = [] → HasBytes root.text)

instance : Decidable (Tellable root r) :=
  inferInstanceAs (Decidable (_ ∧ (_ → _)))

theorem sayAll_created_eq_none_iff (lines : Lines) (root : Path) (total : Nat) (r : WriteReport) :
    (lines.sayAll (if r.failed.isEmpty then
      r.written.map (fun p => ofString "  Created " ++ p.text) ++
        [ofString "Done! Generated " ++ ofString (toString total) ++ ofString " files in " ++
          root.text]
      else r.written.map fun p => ofString "  Created " ++ p.text)).2 = none ↔
    Tellable root r := by
  rw [sayAll_eq_none_iff, Tellable]
  cases r.failed with
  | nil => simp [or_imp, forall_and, hasBytes_append, hasBytes_ofString]
  | cons first others => simp [hasBytes_append, hasBytes_ofString]

/-- The ways in which writing can be concluded. -/
inductive Concluded (root : Path) (total : Nat) (r : WriteReport) : Outcome → Prop
  | stopped {f : Disk.Fault} {lines : Lines} (hstopped : r.stopped = some f) :
      Concluded root total r (lines.fail (.stopped f))
  | untold {lines : Lines} (hstopped : r.stopped = none) (htold : ¬ Tellable root r) :
      Concluded root total r (lines.fail (.stopped .unencodable))
  | unwritten {lines : Lines} (hstopped : r.stopped = none) (htold : Tellable root r)
      (hfailed : r.failed ≠ []) :
      Concluded root total r (lines.fail (.unwritten r.failed.length total))
  | done {lines : Lines} (hstopped : r.stopped = none) (htold : Tellable root r)
      (hfailed : r.failed = []) : Concluded root total r lines.succeed

theorem concluded (o : Options) (root : Path) (total : Nat) (lines : Lines) (r : WriteReport) :
    Concluded root total r (conclude o root total lines r) := by
  simp only [conclude]
  generalize lines.append _ = lines
  cases hstopped : r.stopped with
  | some f => exact .stopped hstopped
  | none =>
    have htold := sayAll_created_eq_none_iff lines root total r
    dsimp only
    split
    · rename_i said f hsaid
      obtain rfl : f = .stopped .unencodable := eq_of_sayAll (congrArg Prod.snd hsaid)
      rw [hsaid] at htold
      exact .untold hstopped fun h => Option.some_ne_none _ (htold.mpr h)
    · rename_i said hsaid
      rw [hsaid] at htold
      split
      · rename_i hfailed
        exact .done hstopped (htold.mp rfl) (List.isEmpty_iff.mp hfailed)
      · rename_i hfailed
        exact .unwritten hstopped (htold.mp rfl) fun h => hfailed (List.isEmpty_iff.mpr h)

/-- The exit code tells that everything was written and that all of this could be told. -/
theorem Concluded.code {out : Outcome} (h : Concluded root total r out) :
    out.code =
      some (if r.isOk = true ∧ (∀ p ∈ r.written, HasBytes p.text) ∧ HasBytes root.text then 0
        else 1) := by
  have hiff : (r.isOk = true ∧ (∀ p ∈ r.written, HasBytes p.text) ∧ HasBytes root.text) ↔
      r.stopped = none ∧ Tellable root r ∧ r.failed = [] := by
    simp only [WriteReport.isOk, Tellable, Bool.and_eq_true, List.isEmpty_iff,
      Option.isNone_iff_eq_none]
    tauto
  rw [if_congr hiff rfl rfl]
  cases h with
  | stopped hstopped => simp [hstopped, Lines.fail, Failure.code?]
  | untold hstopped htold => simp [htold, Lines.fail, Failure.code?]
  | unwritten hstopped htold hfailed => simp [hfailed, Lines.fail, Failure.code?]
  | done hstopped htold hfailed => simp [hstopped, htold, hfailed, Lines.succeed]

end Command
end ApiScaffold
