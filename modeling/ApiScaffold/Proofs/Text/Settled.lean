import ApiScaffold.Proofs.Text.Lower

namespace ApiScaffold.Text
open CaseTable

section Numbers
variable {r : Run} {ms ns : List Nat} {n : Nat}

/-- The numbers of a run, one by one. -/
def Run.numbers (r : Run) : List Nat :=
  (List.range ((r.last - r.first) / r.step + 1)).map (r.first + r.step * ·)

theorem Run.mem_numbers (h : r.holds n = true) : n ∈ r.numbers := by
  simp only [holds, Bool.and_eq_true, decide_eq_true_eq, beq_iff_eq] at h
  obtain ⟨⟨hfirst, hlast⟩, hstep⟩ := h
  have hturns : r.step * ((n - r.first) / r.step) = n - r.first :=
    Nat.mul_div_cancel' (Nat.dvd_of_mod_eq_zero hstep)
  have hle : (n - r.first) / r.step ≤ (r.last - r.first) / r.step :=
    Nat.div_le_div_right (by omega)
  apply List.mem_map.mpr
  exact ⟨(n - r.first) / r.step, List.mem_range.mpr (by omega), by omega⟩

/-- The numbers of a list as the places of the ones in one number. The kernel compares two long
lists of numbers in this form at once. -/
def mask : List Nat → Nat
  | [] => 0
  | n :: ns => Nat.lor (Nat.shiftLeft 1 n) (mask ns)

theorem testBit_mask : (mask ns).testBit n = true ↔ n ∈ ns := by
  induction ns with
  | nil => simp [mask]
  | cons m ns ih =>
    have hone : (1 <<< m).testBit n = true ↔ n = m := by
      rw [Nat.one_shiftLeft, Nat.testBit_two_pow, decide_eq_true_eq, eq_comm]
    change (1 <<< m ||| mask ns).testBit n = true ↔ _
    rw [Nat.testBit_or, Bool.or_eq_true, hone, ih, List.mem_cons]

theorem not_mem_of_land_mask (h : Nat.land (mask ms) (mask ns) = 0) (hm : n ∈ ms) : n ∉ ns := by
  intro hn
  have hboth : (mask ms &&& mask ns).testBit n = true := by
    rw [Nat.testBit_and, testBit_mask.mpr hm, testBit_mask.mpr hn, Bool.and_self]
  have hnone : mask ms &&& mask ns = 0 := h
  rw [hnone, Nat.zero_testBit] at hboth
  contradiction

end Numbers

section Characters
variable {c d : Char} {m n : Nat}

/-- The numbers that the table moves, and where it moves them. -/
def capitals : List Nat :=
  toLower.flatMap (·.run.numbers)

def smalls : List Nat :=
  toLower.flatMap fun s => s.run.numbers.map fun n : Nat => ((n : Int) + s.distance).toNat

/-- No small letter is a capital one; the dot of the dotted capital and the two forms of sigma
count as small, the dotted capital and capital sigma as capital. -/
theorem not_capital_of_small (h : n ∈ 0x307 :: 0x3c2 :: 0x3c3 :: smalls) :
    n ∉ 0x130 :: 0x3a3 :: capitals := by
  apply not_mem_of_land_mask _ h
  decide +kernel

/-- A character that lowering leaves as it is, wherever it stands. -/
def IsSmall (c : Char) : Prop :=
  c ≠ 'Σ' ∧ lowerForm c = [c]

theorem isSmall_of_isAscii (h : isAscii c = true) (hsame : lowerLetter c = c) : IsSmall c := by
  constructor
  · rintro rfl
    contradiction
  · rw [lowerForm_of_isAscii h, hsame]

theorem image?_eq_none (h : n ∉ capitals) : Shift.image? toLower n = none := by
  have hno : toLower.find? (fun s => s.run.holds n) = none := by
    apply List.find?_eq_none.mpr
    intro s hs hholds
    exact h (List.mem_flatMap.mpr ⟨s, hs, Run.mem_numbers hholds⟩)
  rw [Shift.image?, hno, Option.map_none]

theorem mem_smalls_of_image? (h : Shift.image? toLower n = some m) : m ∈ smalls := by
  obtain ⟨s, hfind, hm⟩ := Option.map_eq_some_iff.mp h
  have hs := List.mem_of_find?_eq_some hfind
  have hholds : s.run.holds n = true :=
    List.find?_some (p := fun s : Shift => s.run.holds n) hfind
  exact List.mem_flatMap.mpr ⟨s, hs, List.mem_map.mpr ⟨n, Run.mem_numbers hholds, hm⟩⟩

theorem lowerLetter_of_not_mem (h : c.toNat ∉ capitals) : lowerLetter c = c := by
  apply if_neg
  intro hc
  simp only [Bool.and_eq_true, decide_eq_true_eq, Char.le_def, UInt32.le_iff_toNat_le] at hc
  have hholds : (Run.mk 0x41 0x5a 1).holds c.toNat = true := by
    simp only [Run.holds, Nat.mod_one, beq_self_eq_true, Bool.and_true, Bool.and_eq_true,
      decide_eq_true_eq]
    exact hc
  exact h (List.mem_flatMap.mpr ⟨⟨⟨0x41, 0x5a, 1⟩, 32⟩, List.mem_cons_self, Run.mem_numbers hholds⟩)

theorem isSmall_of_not_mem (h : c.toNat ∉ 0x130 :: 0x3a3 :: capitals) : IsSmall c := by
  simp only [List.mem_cons, not_or] at h
  obtain ⟨hdotted, hsigma, hcapital⟩ := h
  cases hascii : isAscii c with
  | true => exact isSmall_of_isAscii hascii (lowerLetter_of_not_mem hcapital)
  | false =>
    have hc : ¬ c.toNat < 128 := by simpa [isAscii] using hascii
    have hne : c ≠ '\u0130' := fun he => hdotted (congrArg Char.toNat he)
    refine ⟨fun he => hsigma (congrArg Char.toNat he), ?_⟩
    rw [lowerForm, if_neg hc, if_neg hne, image?_eq_none hcapital, Option.getD_none,
      Char.ofNat_toNat]

/-- A number of no character stands for NUL, which is as small as any. -/
theorem isSmall_ofNat (h : n ∈ 0x307 :: 0x3c2 :: 0x3c3 :: smalls) : IsSmall (Char.ofNat n) := by
  by_cases hn : n.isValidChar
  · have htoNat : (Char.ofNat n).toNat = n := by
      rw [Char.ofNat, dif_pos hn]
      rfl
    apply isSmall_of_not_mem
    rw [htoNat]
    exact not_capital_of_small h
  · rw [Char.ofNat, dif_neg hn]
    exact isSmall_of_isAscii rfl rfl

/-- Whatever a character is lowered to is small. -/
theorem isSmall_of_mem_lowerForm (hc : c ≠ 'Σ') (h : d ∈ lowerForm c) : IsSmall d := by
  unfold lowerForm at h
  split at h
  · rename_i hnumber
    have hascii : isAscii c = true := decide_eq_true hnumber
    obtain rfl : d = lowerLetter c := List.mem_singleton.mp h
    exact isSmall_of_isAscii (isAscii_lowerLetter hascii) (lowerLetter_lowerLetter hascii)
  · split at h
    · rcases List.mem_cons.mp h with rfl | h
      · exact isSmall_of_isAscii rfl rfl
      · obtain rfl := List.mem_singleton.mp h
        exact isSmall_ofNat (n := 0x307) List.mem_cons_self
    · rename_i hnumber hdotted
      obtain rfl := List.mem_singleton.mp h
      cases himage : Shift.image? toLower c.toNat with
      | some m =>
        apply isSmall_ofNat
        simp only [Option.getD_some, List.mem_cons]
        exact .inr (.inr (.inr (mem_smalls_of_image? himage)))
      | none =>
        rw [Option.getD_none, Char.ofNat_toNat]
        refine ⟨hc, ?_⟩
        rw [lowerForm, if_neg hnumber, if_neg hdotted, himage, Option.getD_none, Char.ofNat_toNat]

end Characters

section Texts
variable {t : Text}

/-- All characters of the text are small. -/
def Settled (t : Text) : Prop :=
  ∀ c, .char c ∈ t → IsSmall c

theorem settled_lowerAfter (before t : Text) : Settled (lowerAfter before t) := by
  induction t generalizing before with
  | nil =>
    intro c hc
    cases hc
  | cons p rest ih =>
    intro d hd
    cases p with
    | surrogate n =>
      rcases List.mem_cons.mp hd with hd | hd
      · cases hd
      · exact ih _ d hd
    | char c =>
      rw [lowerAfter, List.mem_append] at hd
      rcases hd with hd | hd
      · obtain ⟨e, he, hed⟩ := List.mem_map.mp hd
        obtain rfl := CodePoint.char.inj hed
        split at he
        · obtain rfl := List.mem_singleton.mp he
          split
          · exact isSmall_ofNat (n := 0x3c2) (by simp)
          · exact isSmall_ofNat (n := 0x3c3) (by simp)
        · rename_i hsigma
          exact isSmall_of_mem_lowerForm hsigma he
      · exact ih _ d hd

theorem lowerAfter_of_settled (h : Settled t) (before : Text) : lowerAfter before t = t := by
  induction t generalizing before with
  | nil => rfl
  | cons p rest ih =>
    have hrest := ih fun c hc => h c (List.mem_cons_of_mem _ hc)
    cases p with
    | surrogate n => simp [lowerAfter, hrest]
    | char c =>
      obtain ⟨hsigma, hform⟩ := h c List.mem_cons_self
      rw [lowerAfter, if_neg hsigma, hform, hrest]
      rfl

/-- Lowering once is enough, for a text of any script. -/
theorem lower_lower (t : Text) : lower (lower t) = lower t :=
  lowerAfter_of_settled (settled_lowerAfter [] t) []

end Texts
end ApiScaffold.Text
