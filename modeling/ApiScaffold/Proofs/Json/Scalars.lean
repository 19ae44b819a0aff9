import ApiScaffold.Proofs.Json.Numerals
import ApiScaffold.Proofs.Text.Lower
import ApiScaffold.Proofs.Text.Pieces
import ApiScaffold.Yaml.Scalar

namespace ApiScaffold.Json
open Yaml Scalar

variable {s rest : List Char} {c : Char}

theorem not_isAlpha_of_isDigit (h : c.isDigit = true) : c.isAlpha = false := by
  have hrange : 48 ≤ c.toNat ∧ c.toNat ≤ 57 := Char.isDigit_iff_toNat.mp h
  have htoNat : c.toNat = c.val.toNat := rfl
  delta Char.isAlpha Char.isUpper Char.isLower
  simp only [Bool.or_eq_false_iff, Bool.and_eq_false_iff, decide_eq_false_iff_not, ge_iff_le,
    UInt32.le_iff_toNat_le]
  simp
  omega

/-- A number begins with a zero only if it has no other digits in front of the point. -/
theorem isWhole_cases (h : isWhole s = true) :
    s = ['0'] ∨ ∃ d rest, s = d :: rest ∧ isNonZero d = true ∧ ∀ c ∈ rest, c.isDigit = true := by
  unfold isWhole at h
  split at h
  · exact .inl rfl
  · cases h
  · cases h
  · rename_i hzero hne
    obtain ⟨d, rest, rfl⟩ := List.exists_cons_of_ne_nil hne
    obtain ⟨hd, hrest⟩ := List.forall_mem_cons.mp (List.all_eq_true.mp h)
    have hrange : 48 ≤ d.toNat ∧ d.toNat ≤ 57 := Char.isDigit_iff_toNat.mp hd
    have hd0 : d.toNat ≠ 48 := fun h0 => by
      obtain rfl : d = '0' := Char.toNat_inj.mp h0
      exact hzero rest rfl
    refine .inr ⟨d, rest, rfl, ?_, hrest⟩
    have hle (a b : Char) : a ≤ b ↔ a.toNat ≤ b.toNat := Iff.rfl
    simp only [isNonZero, hle, Char.reduceToNat, Bool.and_eq_true, decide_eq_true_eq]
    omega

/-- No word looks like what begins with another letter, or none. -/
theorem isCased_eq_false {word : String} (hc : c.isAlpha = false)
    (hword : (word.toList.headD '0').isAlpha = true ∧
      (word.toList.headD '0').toUpper.isAlpha = true) : isCased word (c :: rest) = false := by
  cases hw : word.toList with
  | nil => simp [hw] at hword
  | cons a w =>
    rw [hw, List.headD_cons] at hword
    have hsmall : c ≠ a := by
      rintro rfl
      rw [hc] at hword
      cases hword.1
    have hcapital : c ≠ a.toUpper := by
      rintro rfl
      rw [hc] at hword
      cases hword.2
    simp [isCased, hw, hsmall, hcapital]

/-- Without a colon there are no groups. -/
theorem isSexagesimal_eq_false {start : Char → Bool} (h : ':' ∉ s) :
    isSexagesimal start s = false := by
  have hpieces : Text.pieces ':' s = [s] := by
    have hjoined : Text.pieces ':' ([':'].intercalate [s]) = [s] :=
      Text.pieces_joined (by simpa using h) (by simp)
    simpa using hjoined
  rw [isSexagesimal, hpieces]
  split
  · rename_i heq
    cases heq
  · rfl

theorem eq_append_of_digits? {least most : Nat} {ds : List Char}
    (h : Timestamp.digits? least most s = some (ds, rest)) :
    s = ds ++ rest ∧ (∀ c ∈ ds, c.isDigit = true) ∧ least ≤ ds.length := by
  rw [Timestamp.digits?] at h
  split at h
  · rename_i hleast
    obtain ⟨rfl, rfl⟩ := Prod.mk.inj (Option.some.inj h)
    have hprefix : (s.take most).takeWhile Char.isDigit <+: s :=
      (List.takeWhile_prefix _).trans (List.take_prefix _ _)
    exact ⟨(List.prefix_iff_eq_append.mp hprefix).symm, fun c hc => List.all_eq_true.mp
      List.all_takeWhile c hc, hleast⟩
  · cases h

theorem eq_cons_of_after? (h : Timestamp.after? c s = some rest) : s = c :: rest := by
  cases s with
  | nil => cases h
  | cons d s =>
    rw [Timestamp.after?] at h
    split at h
    · rename_i heq
      rw [heq, Option.some.inj h]
    · cases h

/-- A timestamp begins with digits and a minus. -/
theorem year_of_read? {t : Timestamp} (h : Timestamp.read? s = some t) :
    ∃ year more, s = year ++ '-' :: more ∧ (∀ c ∈ year, c.isDigit = true) ∧ 0 < year.length := by
  simp only [Timestamp.read?, Option.bind_eq_bind, Option.bind_eq_some_iff] at h
  obtain ⟨⟨year, rest⟩, hyear, more, hafter, -⟩ := h
  obtain ⟨rfl, hdigits, hlength⟩ := eq_append_of_digits? hyear
  have hminus : rest = '-' :: more := eq_cons_of_after? hafter
  exact ⟨year, more, by rw [hminus], hdigits, by omega⟩

namespace Number

/-- Whether YAML takes a number for a float: it has a point, and its exponent a sign. -/
def isPointed (n : Number) : Bool :=
  !n.fraction.isEmpty && n.exponent.all fun e => e.sign.isSome

/-- What a number is in YAML. -/
def read (n : Number) : Tree :=
  if n.isInteger then .int n.integer
  else if n.isPointed then .float n.float
  else .str (Text.ofChars n.chars)

theorem isExponent_chars (n : Number) :
    isExponent n.exponentChars = n.exponent.all fun e => e.sign.isSome := by
  cases he : n.exponent with
  | none => simp [exponentChars, he, isExponent]
  | some e =>
    obtain ⟨d, more, hdigits⟩ := List.exists_cons_of_ne_nil e.nonempty
    have hall := e.areDigits
    rw [hdigits] at hall
    obtain ⟨hd, hmore⟩ := List.forall_mem_cons.mp hall
    have hsign : d ≠ '-' ∧ d ≠ '+' := by
      constructor <;> rintro rfl <;> cases hd
    cases hs : e.sign with
    | none =>
      simp only [exponentChars, he, Option.map_some, Option.getD_some, Exponent.chars, hs,
        Exponent.signChars, hdigits, List.singleton_append, Option.all_some]
      cases more with
      | nil => rfl
      | cons d' more => simp [isExponent, hsign]
    | some negative =>
      simpa [exponentChars, he, Exponent.chars, hs, Exponent.signChars, hdigits, isExponent, hd]
        using hmore

theorem dropSign_chars (n : Number) : dropSign n.chars = n.size := by
  obtain ⟨d, rest, hsize, hd⟩ := n.size_eq_cons
  rw [chars, hsize]
  cases n.negative
  · unfold dropSign
    split
    · rename_i heq
      obtain rfl := (List.cons.inj heq).1
      cases hd
    · rename_i heq
      obtain rfl := (List.cons.inj heq).1
      cases hd
    · rfl
  · rfl

theorem colon_not_mem_size (n : Number) : ':' ∉ n.size := fun h => by
  cases n.isNumberChar_chars ':' (List.mem_append_right _ h)

theorem isDigitOrMark_of_isDigit (h : ∀ c ∈ s, c.isDigit = true) :
    ∀ c ∈ s, isDigitOrMark c = true :=
  fun c hc => by simp [isDigitOrMark, h c hc]

/-- The form of a float, behind the digits in front of the point. -/
theorem isPointed_eq (n : Number) :
    ((n.fractionChars ++ n.exponentChars).head? == some '.' &&
      isExponent (((n.fractionChars ++ n.exponentChars).drop 1).dropWhile isDigitOrMark)) =
      n.isPointed := by
  by_cases hf : n.fraction = []
  · rcases n.exponentChars_cases with ⟨-, h⟩ | ⟨-, mark, rest, h, rfl | rfl⟩ <;>
      simp [fractionChars, isPointed, hf, h]
  · have hrest : isDigitOrMark (n.exponentChars.headD '\x00') = false :=
      (by simp [isDigitOrMark] : ∀ c ∈ ['\x00', 'e', 'E'], isDigitOrMark c = false) _
        n.headD_exponentChars
    have hdrop := dropWhile_append_exact (isDigitOrMark_of_isDigit n.areDigits) hrest
    simp [fractionChars, isPointed, hf, hdrop, isExponent_chars]

theorem isFloat_chars (n : Number) : isFloat n.chars = n.isPointed := by
  obtain ⟨hne, hdigits⟩ := forall_isDigit_of_isWhole n.isWhole
  have hrest : isDigitOrMark ((n.fractionChars ++ n.exponentChars).headD '\x00') = false :=
    (by simp [isDigitOrMark] : ∀ c ∈ ['\x00', '.', 'e', 'E'], isDigitOrMark c = false) _
      n.headD_behind
  have hsize : n.size = n.whole ++ (n.fractionChars ++ n.exponentChars) := List.append_assoc ..
  have hwhole : n.size.takeWhile isDigitOrMark = n.whole := by
    rw [hsize, takeWhile_append_exact (isDigitOrMark_of_isDigit hdigits) hrest]
  have hbehind : n.size.dropWhile isDigitOrMark = n.fractionChars ++ n.exponentChars := by
    rw [hsize, dropWhile_append_exact (isDigitOrMark_of_isDigit hdigits) hrest]
  have hgroups : isSexagesimal Char.isDigit (n.size.takeWhile (· != '.')) = false :=
    isSexagesimal_eq_false fun h => n.colon_not_mem_size (List.takeWhile_subset _ h)
  have hstart : (n.whole.head?.any Char.isDigit) = true := by
    cases hw : n.whole with
    | nil => exact absurd hw hne
    | cons a w => simpa [hw] using hdigits a (by rw [hw]; exact List.mem_cons_self)
  obtain ⟨d, more, hcons, hd⟩ := n.size_eq_cons
  obtain ⟨c, rest, hchars, hother⟩ := n.chars_eq_cons
  have hpoint : c ≠ '.' := hother '.' (by decide)
  have hpoint' : d ≠ '.' := by
    rintro rfl
    cases hd
  unfold isFloat
  simp only [dropSign_chars, hwhole, hbehind, hgroups, hstart, Bool.true_and, isPointed_eq]
  simp [hchars, hcons, hpoint, beq_false_of_ne hpoint, hpoint']

theorem isInt_chars (n : Number) : isInt n.chars = n.isInteger := by
  have hgroups : isSexagesimal isNonZero n.size = false :=
    isSexagesimal_eq_false n.colon_not_mem_size
  unfold isInt
  simp only [dropSign_chars, hgroups, Bool.or_false]
  rcases isWhole_cases n.isWhole with hzero | ⟨d, more, hwhole, hd, hmore⟩
  · rcases n.size_cases with ⟨hint, hsize⟩ | ⟨hint, mark, rest, hsize, hmark⟩
    · rw [hint, hsize, hzero]
      rfl
    · rw [hint, hsize, hzero]
      rcases hmark with rfl | rfl | rfl <;> simp [isOctal]
  · have hne : d ≠ '0' := by
      rintro rfl
      cases hd
    rcases n.size_cases with ⟨hint, hsize⟩ | ⟨hint, mark, rest, hsize, hmark⟩
    · rw [hint, hsize, hwhole]
      simpa [hne, hd] using isDigitOrMark_of_isDigit hmore
    · rw [hint, hsize, hwhole]
      rcases hmark with rfl | rfl | rfl <;> simp [hne, isDigitOrMark]

theorem read?_chars (n : Number) : Timestamp.read? n.chars = none := by
  cases hread : Timestamp.read? n.chars with
  | none => rfl
  | some t =>
    obtain ⟨hne, hdigits⟩ := forall_isDigit_of_isWhole n.isWhole
    obtain ⟨year, more, hchars, hyear, hlength⟩ := year_of_read? hread
    obtain ⟨y, ys, rfl⟩ := List.exists_cons_of_ne_nil (List.ne_nil_of_length_pos hlength)
    have hy : y.isDigit = true := hyear y List.mem_cons_self
    cases hn : n.negative with
    | true =>
      rw [chars, hn] at hchars
      obtain rfl : '-' = y := (List.cons.inj hchars).1
      cases hy
    | false =>
      have hyears : y :: ys ++ '-' :: more = n.whole ++ (n.fractionChars ++ n.exponentChars) := by
        simpa [chars, hn, size] using hchars.symm
      have hwhole : y :: ys = n.whole := by
        have hfirst : (y :: ys ++ '-' :: more).takeWhile Char.isDigit = y :: ys :=
          takeWhile_append_exact hyear rfl
        rw [← hfirst, hyears, takeWhile_append_exact hdigits n.isDigit_headD_behind]
      rw [hwhole] at hyears
      have hminus := n.headD_behind
      rw [← List.append_cancel_left hyears] at hminus
      simp at hminus

theorem withoutFinalBreak_chars (n : Number) : withoutFinalBreak n.chars = n.chars := by
  rw [withoutFinalBreak, if_neg]
  intro h
  cases n.isNumberChar_chars '\n' (List.mem_of_getLast? h)

/-- A number looks like what it is read as. -/
theorem lookOf_chars (t : Truths) (n : Number) :
    lookOf t n.chars = if n.isInteger then .int else if n.isPointed then .float else .str := by
  obtain ⟨c, rest, hchars, hother⟩ := n.chars_eq_cons
  have hletter : c.isAlpha = false := Bool.eq_false_iff.mpr fun halpha => by
    have hdigit : c.isDigit = false := Bool.eq_false_iff.mpr fun hdigit => by
      rw [not_isAlpha_of_isDigit hdigit] at halpha
      cases halpha
    refine hother c ⟨hdigit, ?_⟩ rfl
    rintro rfl
    cases halpha
  have hnull : isNull n.chars = false := by
    rw [isNull, hchars, isCased_eq_false hletter (by decide)]
    simp [hother '~']
  have htruth : isTruth t n.chars = false := by
    have hwords : ∀ w ∈ Truths.words t, (w.toList.headD '0').isAlpha = true ∧
        (w.toList.headD '0').toUpper.isAlpha = true := by
      cases t <;> decide
    rw [isTruth, List.any_eq_false, hchars]
    intro w hw
    rw [isCased_eq_false hletter (hwords w hw)]
    exact Bool.false_ne_true
  have hfloat : n.isInteger = true → n.isPointed = false := by
    simp only [isInteger, isPointed, Bool.and_eq_true]
    rintro ⟨hempty, -⟩
    rw [hempty]
    rfl
  unfold lookOf
  simp only [withoutFinalBreak_chars, hnull, htruth, isFloat_chars, isInt_chars, read?_chars]
  cases hint : n.isInteger with
  | true => simp [hchars, hfloat hint]
  | false => simp [hchars, hother]

theorem over_chars (n : Number) : Text.Over isNumberChar (Text.ofChars n.chars) := by
  intro p hp
  obtain ⟨c, hc, rfl⟩ := List.mem_map.mp hp
  exact n.isNumberChar_chars c hc

theorem char_colon_not_mem (n : Number) : .char ':' ∉ Text.ofChars n.size := by
  have hover := n.over_chars
  rw [chars, Text.ofChars, List.map_append, Text.over_append] at hover
  exact hover.2.not_mem rfl

/-- The sign of a number is split off it. -/
theorem splitNumber_chars (n : Number) :
    splitNumber (Text.ofChars n.chars) = .ok (n.negative, Text.ofChars n.size) := by
  have hfilter : (Text.ofChars n.chars).filter (· != .char '_') = Text.ofChars n.chars := by
    rw [List.filter_eq_self]
    intro p hp
    have hmark : p ≠ .char '_' := by
      rintro rfl
      exact n.over_chars.not_mem rfl hp
    simpa using hmark
  obtain ⟨d, rest, hsize, hd⟩ := n.size_eq_cons
  rw [splitNumber, hfilter, chars]
  cases n.negative with
  | true => rfl
  | false =>
    have hminus : d ≠ '-' ∧ d ≠ '+' := by
      constructor <;> rintro rfl <;> cases hd
    simp [hsize, Text.ofChars, hminus]

theorem unsignedInt_size (n : Number) (h : n.isInteger = true)
    (hlimit : n.whole.length ≤ Numeral.digitLimit) :
    unsignedInt (Text.ofChars n.size) = .ok (digitsValue n.whole : Int) := by
  obtain ⟨hne, hdigits⟩ := forall_isDigit_of_isWhole n.isWhole
  have hsize : n.size = n.whole := by
    rcases n.size_cases with ⟨-, hsize⟩ | ⟨hint, -⟩
    · exact hsize
    · rw [h] at hint
      cases hint
  have hcolon := n.char_colon_not_mem
  rw [hsize] at hcolon ⊢
  rcases isWhole_cases n.isWhole with hzero | ⟨d, more, hwhole, hd, -⟩
  · rw [hzero]
    rfl
  · have hd0 : d ≠ '0' := by
      rintro rfl
      cases hd
    have hread : readInt 10 (Text.ofChars n.whole) = .ok (digitsValue n.whole : Int) := by
      rw [readInt, Numeral.readInteger_digits hdigits hne hlimit]
      rfl
    rw [unsignedInt, if_neg hcolon, hread]
    all_goals simp [hwhole, hd0, Text.ofChars]

theorem int_chars (n : Number) (h : n.isInteger = true)
    (hlimit : n.whole.length ≤ Numeral.digitLimit) :
    Scalar.int (Text.ofChars n.chars) = .ok n.integer := by
  rw [Scalar.int, splitNumber_chars]
  show (unsignedInt (Text.ofChars n.size) >>= _) = _
  rw [n.unsignedInt_size h hlimit]
  rfl

/-- The number with a small mark of its exponent. -/
def small (n : Number) : Number :=
  { n with exponent := n.exponent.map fun e => { e with capital := false } }

theorem chars_small (n : Number) : n.small.chars = n.chars.map Text.lowerLetter := by
  have hdigits {s : List Char} (h : ∀ c ∈ s, c.isDigit = true) : s.map Text.lowerLetter = s :=
    (List.map_congr_left fun c hc => Text.lowerLetter_of_isDigit (h c hc)).trans (List.map_id s)
  have hsign : (if n.negative then ['-'] else []).map Text.lowerLetter =
      if n.negative then ['-'] else [] := by
    cases n.negative <;> rfl
  have hfraction : n.fractionChars.map Text.lowerLetter = n.fractionChars := by
    by_cases hf : n.fraction = []
    · simp [fractionChars, hf]
    · have hpoint : Text.lowerLetter '.' = '.' := by decide
      simp [fractionChars, hf, hdigits n.areDigits, hpoint]
  have hexponent : n.small.exponentChars = n.exponentChars.map Text.lowerLetter := by
    cases he : n.exponent with
    | none => simp [exponentChars, small, he]
    | some e =>
      have hmark : Text.lowerLetter (if e.capital then 'E' else 'e') = 'e' := by
        cases e.capital <;> decide
      have hpower :
          (Exponent.signChars e.sign).map Text.lowerLetter = Exponent.signChars e.sign := by
        cases e.sign with
        | none => rfl
        | some negative => cases negative <;> decide
      simp [exponentChars, small, he, Exponent.chars, hmark, hpower, hdigits e.areDigits]
  rw [chars, chars, size, size, hexponent]
  simp only [List.map_append, hsign, hfraction,
    hdigits (forall_isDigit_of_isWhole n.isWhole).2]
  rfl

theorem lower_chars (n : Number) :
    Text.lower (Text.ofChars n.chars) = Text.ofChars n.small.chars := by
  have hascii : Text.Over Text.isAscii (Text.ofChars n.chars) := n.over_chars.mono fun c hc => by
    have hvisible := isVisible_of_isNumberChar hc
    simp only [isVisible, Bool.and_eq_true, decide_eq_true_eq] at hvisible
    simp only [Text.isAscii, decide_eq_true_eq]
    omega
  rw [Text.lower_of_over hascii, chars_small]
  simp [Text.ofChars, CodePoint.map]

theorem float_small (n : Number) : n.small.float = n.float := by
  cases he : n.exponent with
  | none => simp [float, small, he]
  | some e => simp [float, small, he, Exponent.power]

theorem unsignedFloat_size (n : Number) :
    unsignedFloat (Text.ofChars n.size) =
      .ok (.ofDecimal false (digitsValue (n.whole ++ n.fraction))
        ((n.exponent.map Exponent.power).getD 0 - n.fraction.length)) := by
  obtain ⟨d, rest, hsize, hd⟩ := n.size_eq_cons
  have hpoint : d ≠ '.' := by
    rintro rfl
    cases hd
  have hword (w : String) (hw : w.toList.head? = some '.') : Text.ofChars n.size ≠ w := by
    intro h
    have hhead : (Text.ofChars n.size).head? = (Text.ofString w).head? := congrArg List.head? h
    simp [hsize, Text.ofChars, Text.ofString, hw, hpoint] at hhead
  rw [unsignedFloat, if_neg (hword ".inf" rfl), isNotNumberWord,
    if_neg (by simpa using hword ".nan" rfl), if_neg n.char_colon_not_mem, readFloat,
    Numeral.readFloat?_size]

theorem float_chars (n : Number) : Scalar.float (Text.ofChars n.chars) = .ok n.float := by
  rw [Scalar.float, lower_chars, splitNumber_chars, ← float_small]
  show (unsignedFloat (Text.ofChars n.small.size) >>= _) = _
  rw [unsignedFloat_size]
  cases hn : n.small.negative with
  | true =>
    simp only [float, hn, ← Binary64.negate_ofDecimal]
    rfl
  | false =>
    simp only [float, hn]
    rfl

end Number

theorem Word.value_chars (w : Word) (t : Truths) :
    Scalar.value (plainTag t (Text.ofChars w.chars)) (Text.ofChars w.chars) = .ok w.value := by
  cases w <;> cases t <;> rfl

/-- A number is read as what it is in YAML, unless it is an integer of too many digits. -/
theorem Number.value_chars (n : Number) (t : Truths)
    (hlimit : n.isInteger = true → n.whole.length ≤ Numeral.digitLimit) :
    Scalar.value (plainTag t (Text.ofChars n.chars)) (Text.ofChars n.chars) = .ok n.read := by
  rw [plainTag, Text.chars?_ofChars, Option.map_some, Option.getD_some, lookOf_chars, read]
  split
  · rename_i hint
    rw [Scalar.value, n.int_chars hint (hlimit hint)]
    rfl
  · split
    · rw [Scalar.value, n.float_chars]
      rfl
    · rfl

end ApiScaffold.Json
