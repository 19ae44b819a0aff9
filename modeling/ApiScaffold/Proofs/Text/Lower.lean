import ApiScaffold.Name.Identifier
import ApiScaffold.Proofs.Text.Alphabet
import ApiScaffold.Text.Case

namespace ApiScaffold.Text
variable {t : Text}

def isAscii (c : Char) : Bool :=
  c.toNat < 128

/-- The small letter of a capital one. -/
def lowerLetter (c : Char) : Char :=
  if 'A' ≤ c && c ≤ 'Z' then Char.ofNat (c.toNat + 32) else c

/-- What holds of the first numbers holds of the characters that have them. -/
theorem ascii_forall {P : Char → Prop} (h : ∀ n < 128, P (Char.ofNat n)) {c : Char}
    (hc : isAscii c = true) : P c := by
  have hn := h c.toNat (by simpa [isAscii] using hc)
  rwa [Char.ofNat_toNat] at hn

theorem isAscii_lowerLetter {c : Char} (h : isAscii c = true) :
    isAscii (lowerLetter c) = true :=
  ascii_forall (P := fun c => isAscii (lowerLetter c) = true) (by decide +kernel) h

theorem lowerLetter_lowerLetter {c : Char} (h : isAscii c = true) :
    lowerLetter (lowerLetter c) = lowerLetter c :=
  ascii_forall (P := fun c => lowerLetter (lowerLetter c) = lowerLetter c) (by decide +kernel) h

theorem lowerForm_of_isAscii {c : Char} (h : isAscii c = true) : lowerForm c = [lowerLetter c] := by
  have hc : c.toNat < 128 := by simpa [isAscii] using h
  rw [lowerForm, if_pos hc, lowerLetter]

theorem lowerLetter_of_isDigit {c : Char} (h : c.isDigit = true) : lowerLetter c = c := by
  have hcapital : ¬ ('A' ≤ c) := by
    simp only [Char.isDigit, Bool.and_eq_true, decide_eq_true_eq, UInt32.le_iff_toNat_le] at h
    rw [Char.le_def, UInt32.le_iff_toNat_le]
    simp at h ⊢
    omega
  simp [lowerLetter, hcapital]

/-- No letter of ASCII looks at the letters around it. -/
theorem lowerAfter_of_over (before : Text) (h : Over isAscii t) :
    lowerAfter before t = t.map (·.map lowerLetter) := by
  induction t generalizing before with
  | nil => rfl
  | cons p rest ih =>
    have hrest : Over isAscii rest := fun c hc => h c (List.mem_cons_of_mem _ hc)
    have hp := h p List.mem_cons_self
    cases p with
    | surrogate n => cases hp
    | char c =>
      have hsigma : c ≠ 'Σ' := by
        rintro rfl
        cases hp
      rw [lowerAfter, if_neg hsigma, lowerForm_of_isAscii hp, ih _ hrest]
      rfl

theorem lower_of_over (h : Over isAscii t) : lower t = t.map (·.map lowerLetter) :=
  lowerAfter_of_over [] h

/-- An underscore ends a word: it has no case, and it is not passed over. -/
theorem meetsCased_append_underscore (t more : Text) :
    meetsCased (t ++ .char '_' :: more) = meetsCased t := by
  unfold meetsCased
  induction t with
  | nil =>
    have hmet : Run.covers CaseTable.caseIgnorable 0x5f = false := by decide +kernel
    have hcaseless : Run.covers CaseTable.casedLetters 0x5f = false := by decide +kernel
    simp [CodePoint.toNat, hmet, hcaseless]
  | cons p rest ih =>
    rw [List.cons_append]
    by_cases hp : Run.covers CaseTable.caseIgnorable p.toNat
    · simpa [hp] using ih
    · simp [hp]

theorem lowerAfter_append_underscore {more : Text} (h : Over isAscii more) (before t : Text) :
    lowerAfter before (t ++ .char '_' :: more) =
      lowerAfter before t ++ .char '_' :: more.map (·.map lowerLetter) := by
  induction t generalizing before with
  | nil =>
    apply lowerAfter_of_over
    intro c hc
    rcases List.mem_cons.mp hc with rfl | hc
    · rfl
    · exact h c hc
  | cons p rest ih =>
    cases p with
    | surrogate n => simp [lowerAfter, ih]
    | char c => simp [lowerAfter, meetsCased_append_underscore, ih]

theorem isAscii_of_isPart {c : Char} (h : Identifier.isPart c = true) : isAscii c = true := by
  delta Identifier.isPart Char.isAlphanum Char.isAlpha Char.isUpper Char.isLower Char.isDigit at h
  have htoNat : c.toNat = c.val.toNat := rfl
  simp only [Bool.or_eq_true, Bool.and_eq_true, decide_eq_true_eq, UInt32.le_iff_toNat_le,
    beq_iff_eq, isAscii, htoNat] at h ⊢
  simp at h
  rcases h with h | rfl
  · omega
  · decide

end ApiScaffold.Text
