import ApiScaffold.Proofs.Json.Grammar
import ApiScaffold.Proofs.Text.Infix

namespace ApiScaffold

namespace Binary64

theorem negate_ofQuotient (num den : Nat) :
    (ofQuotient false num den).negate = ofQuotient true num den := by
  simp only [ofQuotient]
  split
  · rfl
  · exact apply_ite negate _ _ _

theorem negate_ofDecimal (digits : Nat) (power : Int) :
    (ofDecimal false digits power).negate = ofDecimal true digits power := by
  simp only [ofDecimal]
  split
  · rfl
  · split
    · rfl
    · exact negate_ofQuotient _ _

end Binary64

namespace Json

theorem takeWhile_append_exact {s rest : List Char} {p : Char → Bool} (h : ∀ c ∈ s, p c = true)
    (hrest : p (rest.headD '\x00') = false) : (s ++ rest).takeWhile p = s := by
  rw [List.takeWhile_append_of_pos h]
  cases rest with
  | nil => simp
  | cons c rest => simp [show p c = false from hrest]

theorem dropWhile_append_exact {s rest : List Char} {p : Char → Bool} (h : ∀ c ∈ s, p c = true)
    (hrest : p (rest.headD '\x00') = false) : (s ++ rest).dropWhile p = rest := by
  rw [List.dropWhile_append_of_pos h]
  cases rest with
  | nil => rfl
  | cons c rest => simp [show p c = false from hrest]

end Json

namespace Numeral
open Json

variable {digits rest : List Char}

theorem spanDigits_append (h : ∀ c ∈ digits, c.isDigit = true)
    (hrest : (rest.headD '\x00').isDigit = false) :
    spanDigits (digits ++ rest) = (digits.map fun c => c.toNat - 48, rest) := by
  induction digits with
  | nil =>
    cases rest with
    | nil => rfl
    | cons c rest => simp [spanDigits, show c.isDigit = false from hrest]
  | cons c digits ih =>
    obtain ⟨hc, hdigits⟩ := List.forall_mem_cons.mp h
    simp [spanDigits, hc, ih hdigits]

theorem readDigits?_digits (h : ∀ c ∈ digits, c.isDigit = true) (value : Nat) :
    readDigits? 10 value digits =
      some (digits.foldl (fun n c => n * 10 + (c.toNat - 48)) value) := by
  induction digits generalizing value with
  | nil => rfl
  | cons c digits ih =>
    obtain ⟨hc, hdigits⟩ := List.forall_mem_cons.mp h
    have hrange : 48 ≤ c.toNat ∧ c.toNat ≤ 57 := Char.isDigit_iff_toNat.mp hc
    have hvalue : digitValue? c = some (c.toNat - 48) := by
      have hle : '0' ≤ c ∧ c ≤ '9' := hrange
      rw [digitValue?, if_pos hle]
    rw [readDigits?, hvalue]
    simp only [show c.toNat - 48 < 10 by omega, if_true, ih hdigits, List.foldl_cons]

/-- What is visible is read as it is. -/
theorem trimMargins_plainForm {s : List Char} (h : ∀ c ∈ s, isVisible c = true) :
    trimMargins (plainForm (Text.ofChars s)) = s := by
  have hplain : plainForm (Text.ofChars s) = s := by
    rw [plainForm, Text.ofChars, List.map_map]
    refine (List.map_congr_left fun c hc => ?_).trans (List.map_id s)
    have hvisible := h c hc
    simp only [isVisible, Bool.and_eq_true, decide_eq_true_eq] at hvisible
    exact if_pos (by omega)
  have hmargin : ∀ c ∈ s, isMargin c = false := by
    intro c hc
    have hvisible := h c hc
    have hle (a b : Char) : a ≤ b ↔ a.toNat ≤ b.toNat := Iff.rfl
    simp only [isVisible, Bool.and_eq_true, decide_eq_true_eq] at hvisible
    have hspace : c ≠ ' ' := by
      rintro rfl
      simp at hvisible
    have hmove : ¬ c ≤ '\r' := by
      simp only [hle, Char.reduceToNat]
      omega
    simp [isMargin, hspace, hmove]
  have hstart : s.dropWhile isMargin = s := by
    cases s with
    | nil => rfl
    | cons c s => rw [List.dropWhile_cons, hmargin c List.mem_cons_self]; rfl
  rw [hplain, trimMargins, hstart, Text.dropLastWhile_of_forall hmargin]

theorem splitSign_of_isDigit {c : Char} (h : c.isDigit = true) (s : List Char) :
    splitSign (c :: s) = (false, c :: s) := by
  unfold splitSign
  split
  · rename_i heq
    obtain rfl := (List.cons.inj heq).1
    cases h
  · rename_i heq
    obtain rfl := (List.cons.inj heq).1
    cases h
  · rfl

/-- Digits are read as what they stand for, up to the most that are allowed. -/
theorem readInteger_digits (h : ∀ c ∈ digits, c.isDigit = true) (hne : digits ≠ [])
    (hlimit : digits.length ≤ digitLimit) :
    readInteger 10 (Text.ofChars digits) = .ok (digitsValue digits) := by
  obtain ⟨d, more, rfl⟩ := List.exists_cons_of_ne_nil hne
  have hspan : spanDigits (d :: more ++ []) = (_, []) := spanDigits_append h rfl
  have hmark : dropMark 10 (d :: more) = d :: more := by
    unfold dropMark
    split
    · rename_i heq
      exact heq.symm
    · rfl
  rw [readInteger, trimMargins_plainForm fun c hc => isVisible_of_isDigit (h c hc),
    splitSign_of_isDigit (h d List.mem_cons_self)]
  rw [List.append_nil] at hspan
  simp only [hmark, hspan, List.length_map, readDigits?_digits h]
  rw [if_neg (by omega)]
  simp [digitsValue, ofDigits, List.foldl_map]

theorem readExponent?_chars (n : Number) :
    readExponent? n.exponentChars = some ((n.exponent.map Exponent.power).getD 0) := by
  cases he : n.exponent with
  | none => simp [Number.exponentChars, he, readExponent?]
  | some e =>
    obtain ⟨d, more, hdigits⟩ := List.exists_cons_of_ne_nil e.nonempty
    have hspan : spanDigits (e.digits ++ []) = (_, []) := spanDigits_append e.areDigits rfl
    rw [List.append_nil] at hspan
    have hsign : splitSign (Exponent.signChars e.sign ++ e.digits) =
        (e.sign == some true, e.digits) := by
      cases hs : e.sign with
      | none =>
        rw [hdigits]
        exact splitSign_of_isDigit (e.areDigits d (by rw [hdigits]; exact List.mem_cons_self)) more
      | some negative => cases negative <;> rfl
    have hmark :
        (if e.capital then 'E' else 'e') = 'e' ∨ (if e.capital then 'E' else 'e') = 'E' := by
      cases e.capital <;> simp
    simp only [Number.exponentChars, he, Option.map_some, Option.getD_some, Exponent.chars]
    rw [List.cons_append, readExponent?, if_pos hmark, hsign]
    rw [hdigits] at hspan
    simp only [hdigits, hspan, List.map_cons, Exponent.power, digitsValue]
    cases e.sign with
    | none => rfl
    | some negative => cases negative <;> rfl

/-- A number without its sign is read as a float that the sign alone may change. -/
theorem readDecimal?_size (n : Number) (negative : Bool) :
    readDecimal? negative n.size = some (.ofDecimal negative (digitsValue (n.whole ++ n.fraction))
      ((n.exponent.map Exponent.power).getD 0 - n.fraction.length)) := by
  obtain ⟨hne, hwhole⟩ := forall_isDigit_of_isWhole n.isWhole
  have hexponent : (n.exponentChars.headD '\x00').isDigit = false :=
    (by simp : ∀ c ∈ ['\x00', 'e', 'E'], c.isDigit = false) _ n.headD_exponentChars
  have hspan := spanDigits_append hwhole n.isDigit_headD_behind
  have hempty : (n.whole.map fun c => c.toNat - 48).isEmpty = false := by simpa using hne
  rw [Number.size, List.append_assoc, readDecimal?, hspan]
  by_cases hf : n.fraction = []
  · have hpoint (rest : List Char) : n.exponentChars ≠ '.' :: rest := by
      intro h
      have hhead := n.headD_exponentChars
      simp [h] at hhead
    simp only [Number.fractionChars, hf, if_true, List.nil_append, hempty, List.append_nil,
      readExponent?_chars]
    rfl
  · have hfraction := spanDigits_append n.areDigits hexponent
    simp only [Number.fractionChars, if_neg hf, List.cons_append, hfraction, hempty,
      readExponent?_chars, List.length_map, digitsValue, List.map_append]
    rfl

theorem smallLatin_of_isDigit {c : Char} (h : c.isDigit = true) : smallLatin c = c := by
  have hrange : 48 ≤ c.toNat ∧ c.toNat ≤ 57 := Char.isDigit_iff_toNat.mp h
  have hle : 'A' ≤ c ↔ 65 ≤ c.toNat := Iff.rfl
  rw [smallLatin, if_neg]
  rw [hle]
  omega

theorem readFloat?_size (n : Number) :
    readFloat? (Text.ofChars n.size) =
      some (.ofDecimal false (digitsValue (n.whole ++ n.fraction))
        ((n.exponent.map Exponent.power).getD 0 - n.fraction.length)) := by
  obtain ⟨d, rest, hsize, hd⟩ := n.size_eq_cons
  have hword (w : String) (hw : (w.toList.headD '\x00').isDigit = false) :
      String.ofList (n.size.map smallLatin) ≠ w := by
    intro h
    rw [← h, hsize, String.toList_ofList, List.map_cons, smallLatin_of_isDigit hd] at hw
    rw [List.headD_cons, hd] at hw
    cases hw
  have hsign : splitSign n.size = (false, n.size) := by
    rw [hsize]
    exact splitSign_of_isDigit hd rest
  rw [readFloat?, trimMargins_plainForm n.isVisible_size, hsign]
  simp only [hword "inf" rfl, hword "infinity" rfl, hword "nan" rfl, or_self, if_false,
    readDecimal?_size]

end Numeral

end ApiScaffold
