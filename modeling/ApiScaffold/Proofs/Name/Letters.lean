import ApiScaffold.Name.Identifier
import ApiScaffold.Name.Pascal
import ApiScaffold.Name.Unique
import ApiScaffold.Proofs.Text.Alphabet

namespace ApiScaffold
open Text

namespace Identifier
variable {fallback raw : Text}

theorem isPart_of_isDigit {c : Char} (h : c.isDigit = true) : isPart c = true := by
  simp [isPart, Char.isAlphanum, h]

/-- Cleaning leaves letters, digits and underscores. -/
theorem over_clean (hf : Over isPart fallback) : Over isPart (clean fallback raw) := by
  unfold clean
  split
  · exact hf
  · rename_i p rest hr
    have hk : Over isPart (p :: rest) := by
      intro c hc
      rw [← hr] at hc
      exact (List.mem_filter.mp hc).2
    split
    · intro c hc
      rcases List.mem_cons.mp hc with rfl | hc
      · decide
      · exact hk c hc
    · exact hk

theorem over_ofTable (name : Text) : Over isPart (ofTable name) :=
  over_clean (by decide)

theorem over_ofFunction (name : Text) : Over isPart (ofFunction name) :=
  over_clean (by decide)

end Identifier

namespace Name
variable {mode : CaseMode} {taken names : List Text} {name : Text}

theorem over_numbered (h : Over Identifier.isPart name) (k : Nat) :
    Over Identifier.isPart (numbered name k) := by
  have hk := (over_toString k).mono fun _ hd => Identifier.isPart_of_isDigit hd
  exact (h.append (by decide)).append hk

theorem firstFree_eq_numbered (tries k : Nat) :
    ∃ j, firstFree mode taken name tries k = numbered name j := by
  induction tries generalizing k with
  | zero => exact ⟨k, rfl⟩
  | succ tries ih =>
    rw [firstFree]
    split
    · exact ih (k + 1)
    · exact ⟨k, rfl⟩

theorem unique_eq (mode : CaseMode) (taken : List Text) (name : Text) :
    unique mode taken name = name ∨ ∃ j, unique mode taken name = numbered name j := by
  unfold unique
  split
  · exact .inr (firstFree_eq_numbered _ _)
  · exact .inl rfl

/-- What holds of the wanted names and survives numbering holds of the claimed names. -/
theorem claimAll_forall {P : Text → Prop} (hk : ∀ n k, P n → P (numbered n k))
    (h : ∀ n ∈ names, P n) : ∀ n ∈ claimAll mode taken names, P n := by
  induction names generalizing taken with
  | nil => simp [claimAll]
  | cons name rest ih =>
    intro n hn
    rcases List.mem_cons.mp hn with rfl | hn
    · have hname := h name List.mem_cons_self
      rcases unique_eq mode taken name with he | ⟨j, he⟩
      · simpa only [claim, he] using hname
      · simpa only [claim, he] using hk name j hname
    · exact ih (fun m hm => h m (List.mem_cons_of_mem _ hm)) n hn

@[simp] theorem length_claimAll : (claimAll mode taken names).length = names.length := by
  induction names generalizing taken with
  | nil => rfl
  | cons name rest ih => simp [claimAll, ih]

theorem isUpper_toUpper {c : Char} (h : c.isLower = true) : c.toUpper.isUpper = true := by
  have hdistance : 'A'.val - 'a'.val = 4294967264 := by decide
  unfold Char.isLower at h
  unfold Char.toUpper Char.isUpper
  simp only [Bool.and_eq_true, decide_eq_true_eq] at h
  simp only [dif_pos h, hdistance]
  simp only [UInt32.le_iff_toNat_le, UInt32.toNat_add, decide_eq_true_eq] at h ⊢
  simp at h ⊢
  omega

theorem isUpper_or_isDigit_toUpper {c : Char} (h : c.isAlphanum = true) :
    c.toUpper.isUpper = true ∨ c.toUpper.isDigit = true := by
  cases hl : c.isLower with
  | true => exact .inl (isUpper_toUpper hl)
  | false =>
    have hsame : c.toUpper = c := by
      unfold Char.isLower at hl
      exact dif_neg (by simpa using hl)
    rw [hsame]
    have hkinds : ((c.isUpper || c.isLower) || c.isDigit) = true := h
    simpa [hl] using hkinds

theorem isAlphanum_toUpper {c : Char} (h : c.isAlphanum = true) : c.toUpper.isAlphanum = true := by
  have hkinds : ((c.toUpper.isUpper || c.toUpper.isLower) || c.toUpper.isDigit) = true := by
    rcases isUpper_or_isDigit_toUpper h with h | h <;> simp [h]
  exact hkinds

theorem isDigit_toUpper (c : Char) : c.toUpper.isDigit = c.isDigit := by
  unfold Char.toUpper Char.isDigit
  split <;> grind [UInt32.toNat_add, Char.toNat_val]

theorem isAlphanum_of_mem_joinWords {opens : Bool} {c : Char} (h : c ∈ joinWords opens name) :
    c.isAlphanum = true := by
  induction name generalizing opens with
  | nil => cases h
  | cons p rest ih =>
    cases p with
    | surrogate n => exact ih h
    | char d =>
      rw [joinWords] at h
      split at h
      · rename_i hd
        rcases List.mem_cons.mp h with rfl | h
        · split
          · exact isAlphanum_toUpper hd
          · exact hd
        · exact ih h
      · exact ih h

theorem over_pascal (name : Text) : Over Char.isAlphanum (pascal name) := by
  intro c hc
  obtain ⟨d, hd, rfl⟩ := List.mem_map.mp hc
  exact isAlphanum_of_mem_joinWords hd

/-- A name in this form begins with its first letter or digit, a letter in upper case. -/
theorem head?_pascal (name : Text) :
    (pascal name).head? = (name.find? (·.is Char.isAlphanum)).map (·.map Char.toUpper) := by
  unfold pascal
  induction name with
  | nil => rfl
  | cons p rest ih =>
    cases p with
    | surrogate n => exact ih
    | char c =>
      rw [joinWords, List.find?_cons]
      by_cases hc : c.isAlphanum
      · simp [CodePoint.is, hc, ofChars, CodePoint.map]
      · simpa [CodePoint.is, hc] using ih

/-- What stands behind a name without letters and digits decides in its place. -/
theorem head?_pascal_append (name rest : Text) :
    (pascal name ++ rest).head? =
      ((name.find? (·.is Char.isAlphanum)).map (·.map Char.toUpper)).or rest.head? := by
  rw [List.head?_append, head?_pascal]

end Name

end ApiScaffold
