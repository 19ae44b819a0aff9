import ApiScaffold.Proofs.Json.Numerals

namespace ApiScaffold.Json

variable {rest : List Char}

theorem readText_glyphs (glyphs : List Glyph) (rest : List Char) :
    readText (glyphs.flatMap Glyph.chars ++ '"' :: rest) = some (Glyph.text glyphs, rest) := by
  induction glyphs with
  | nil => rfl
  | cons g glyphs ih =>
    rw [List.flatMap_cons, List.append_assoc]
    cases g with
    | raw c h =>
      simp only [isRaw, Bool.and_eq_true, decide_eq_true_eq, bne_iff_ne, ne_eq] at h
      obtain ⟨⟨hcontrol, hquote⟩, hbackslash⟩ := h
      have hplain : ¬ (c = '\\' ∨ c.toNat < 32) := by
        rintro (hc | hc)
        · exact hbackslash hc
        · omega
      rw [Glyph.chars, List.singleton_append, readText]
      · simp only [if_neg hplain, ih]
        rfl
      all_goals simp [hquote, hbackslash]
    | escape letter e h =>
      have hu : letter ≠ 'u' := by
        rintro rfl
        cases h
      rw [Glyph.chars, List.cons_append, List.cons_append, List.nil_append, readText]
      · simp only [h, ih]
        rfl
      all_goals simp [hu]
    | code a b c d n h =>
      rw [Glyph.chars]
      simp only [List.cons_append, List.nil_append, readText, h, ih]
      rfl

namespace Number

theorem unsignedNumber?_size (n : Number) : unsignedNumber? n.negative n.size = some n.value := by
  obtain ⟨hne, hdigits⟩ := forall_isDigit_of_isWhole n.isWhole
  have hsize : n.size = n.whole ++ (n.fractionChars ++ n.exponentChars) := List.append_assoc ..
  have hwhole : n.size.takeWhile Char.isDigit = n.whole := by
    rw [hsize, takeWhile_append_exact hdigits n.isDigit_headD_behind]
  have hrest : n.size.dropWhile Char.isDigit = n.fractionChars ++ n.exponentChars := by
    rw [hsize, dropWhile_append_exact hdigits n.isDigit_headD_behind]
  rw [unsignedNumber?, hwhole, hrest, if_pos n.isWhole, Numeral.readDecimal?_size]
  by_cases hf : n.fraction = []
  · rcases n.exponentChars_cases with ⟨hnone, hchars⟩ | ⟨hsome, mark, tail, hchars, hmark⟩
    · simp [fractionChars, hf, hchars, value, isInteger, hnone, integer, digitsValue]
    · rcases hmark with rfl | rfl <;>
        simp [fractionChars, hf, hchars, value, isInteger, hsome, float]
  · obtain ⟨d, more, hfraction⟩ := List.exists_cons_of_ne_nil hf
    have hd : d.isDigit = true := n.areDigits d (by rw [hfraction]; exact List.mem_cons_self)
    simp [fractionChars, hfraction, value, isInteger, float, hd]

theorem number?_chars (n : Number) : number? n.chars = some n.value := by
  obtain ⟨d, rest, hsize, hd⟩ := n.size_eq_cons
  have hread := n.unsignedNumber?_size
  cases hn : n.negative with
  | true =>
    rw [hn] at hread
    simpa [chars, hn, number?] using hread
  | false =>
    have hminus : d ≠ '-' := by
      rintro rfl
      cases hd
    rw [hn, hsize] at hread
    simpa [chars, hn, number?, hsize, hminus] using hread

theorem readWord?_chars (n : Number) : readWord? (n.chars ++ rest) = none := by
  obtain ⟨d, more, hsize, hd⟩ := n.size_eq_cons
  have hne (a : Char) (ha : a.isDigit = false) : a ≠ d := by
    rintro rfl
    rw [hd] at ha
    cases ha
  rw [readWord?, chars, hsize]
  cases n.negative with
  | true => simp [words, List.isPrefixOf, hne 'I' rfl]
  | false =>
    simp [words, List.isPrefixOf, hne 'n' rfl, hne 't' rfl, hne 'f' rfl, hne 'N' rfl, hne 'I' rfl,
      hne '-' rfl]

end Number

theorem Word.readWord?_chars (w : Word) : readWord? (w.chars ++ rest) = some (w.value, rest) := by
  cases w <;> rfl

theorem skipSpace_gap (gap : Gap) (rest : List Char) :
    skipSpace (gap.val ++ rest) = skipSpace rest :=
  List.dropWhile_append_of_pos gap.property

theorem skipSpace_cons {c : Char} (h : isSpace c = false) (rest : List Char) :
    skipSpace (c :: rest) = c :: rest := by
  simp [skipSpace, h]

/-- A value begins with a character that is no white space and closes no array. -/
theorem Value.chars_eq_cons (v : Value) :
    ∃ c more, v.chars = c :: more ∧ isSpace c = false ∧ c ≠ ']' := by
  cases v with
  | word w => cases w <;> exact ⟨_, _, rfl, by decide⟩
  | number n =>
    obtain ⟨c, rest, hchars, hother⟩ := n.chars_eq_cons
    exact ⟨c, rest, hchars, by simp [isSpace, hother], by simp [hother]⟩
  | string glyphs => exact ⟨'"', _, rfl, by decide⟩
  | emptyArray gap => exact ⟨'[', _, rfl, by decide⟩
  | array items => exact ⟨'[', _, rfl, by decide⟩
  | emptyObject gap => exact ⟨'\x7b', _, rfl, by decide⟩
  | object members => exact ⟨'\x7b', _, rfl, by decide⟩

theorem skipSpace_skipSpace (s : List Char) : skipSpace (skipSpace s) = skipSpace s := by
  induction s with
  | nil => rfl
  | cons c s ih =>
    by_cases hc : isSpace c = true
    · simpa [skipSpace, hc] using ih
    · simp [skipSpace, hc]

/-- White space in front of a value is of no account. -/
theorem readValue_skipSpace (fuel : Nat) (s : List Char) :
    readValue fuel (skipSpace s) = readValue fuel s := by
  cases fuel with
  | zero => rfl
  | succ fuel => rw [readValue, readValue, skipSpace_skipSpace]

theorem readItems_skipSpace (fuel : Nat) (s : List Char) :
    readItems fuel (skipSpace s) = readItems fuel s := by
  cases fuel with
  | zero => rfl
  | succ fuel => rw [readItems, readItems, readValue_skipSpace]

theorem readMembers_skipSpace (fuel : Nat) (s : List Char) :
    readMembers fuel (skipSpace s) = readMembers fuel s := by
  cases fuel with
  | zero => rfl
  | succ fuel => rw [readMembers, readMembers, skipSpace_skipSpace]

theorem readValue_gap (fuel : Nat) (gap : Gap) (s : List Char) :
    readValue fuel (gap.val ++ s) = readValue fuel s := by
  rw [← readValue_skipSpace, skipSpace_gap, readValue_skipSpace]

/-- What begins like no string, array or object is a word or a number. -/
theorem readValue_plain {s : List Char} (hs : ∃ c more, s = c :: more ∧
      isSpace c = false ∧ c ≠ '"' ∧ c ≠ '[' ∧ c ≠ '\x7b') (fuel : Nat) :
    readValue (fuel + 1) s =
      match readWord? s with
      | some found => some found
      | none =>
        (number? (s.takeWhile isNumberChar)).map fun n => (n, s.dropWhile isNumberChar) := by
  obtain ⟨c, more, rfl, hspace, hquote, hbracket, hbrace⟩ := hs
  rw [readValue, skipSpace_cons hspace]
  split
  · rename_i heq
    exact absurd (List.cons.inj heq).1 hquote
  · rename_i heq
    exact absurd (List.cons.inj heq).1 hbracket
  · rename_i heq
    exact absurd (List.cons.inj heq).1 hbrace
  · rfl

section
variable {k : Nat} {s t u : List Char}

theorem readValue_emptyArray (gap : Gap) :
    readValue (k + 1) ('[' :: (gap.val ++ ']' :: rest)) = some (.list [], rest) := by
  rw [readValue, skipSpace_cons rfl]
  simp only [skipSpace_gap, skipSpace_cons (c := ']') rfl]

theorem readValue_emptyObject (gap : Gap) :
    readValue (k + 1) ('\x7b' :: (gap.val ++ '\x7d' :: rest)) = some (.map [], rest) := by
  rw [readValue, skipSpace_cons rfl]
  simp only [skipSpace_gap, skipSpace_cons (c := '\x7d') rfl]

theorem readValue_array {items : List Tree} (hopen : ∃ c more, skipSpace s = c :: more ∧ c ≠ ']')
    (hread : readItems k s = some (items, rest)) :
    readValue (k + 1) ('[' :: s) = some (.list items, rest) := by
  obtain ⟨c, more, hskip, hc⟩ := hopen
  rw [← readItems_skipSpace, hskip] at hread
  rw [readValue, skipSpace_cons rfl]
  simp only [hskip]
  simp [hc, hread]

theorem readValue_object {entries : Tree.Entries}
    (hopen : ∃ c more, skipSpace s = c :: more ∧ c ≠ '\x7d')
    (hread : readMembers k s = some (entries, rest)) :
    readValue (k + 1) ('\x7b' :: s) = some (Tree.ofEntries entries, rest) := by
  obtain ⟨c, more, hskip, hc⟩ := hopen
  rw [← readMembers_skipSpace, hskip] at hread
  rw [readValue, skipSpace_cons rfl]
  simp only [hskip]
  simp [hc, hread]

theorem readItems_last {item : Tree} (hread : readValue k s = some (item, t))
    (ht : skipSpace t = ']' :: rest) : readItems (k + 1) s = some ([item], rest) := by
  simp [readItems, hread, ht]

theorem readItems_next {item : Tree} {items : List Tree} (hread : readValue k s = some (item, t))
    (ht : skipSpace t = ',' :: u) (hmore : readItems k u = some (items, rest)) :
    readItems (k + 1) s = some (item :: items, rest) := by
  simp [readItems, hread, ht, hmore]

theorem skipSpace_key (key : Key) (s : List Char) :
    skipSpace (key.chars ++ s) = '"' :: (key.glyphs.flatMap Glyph.chars ++
      '"' :: (key.behind.val ++ ':' :: (key.between.val ++ s))) := by
  rw [Key.chars, List.append_assoc, List.append_assoc, skipSpace_gap]
  simp [Key.label, Glyph.quoted, skipSpace, isSpace]

/-- The value of a member is read behind its key. -/
theorem readMembers_key {key : Key} {value : Tree} (hread : readValue k s = some (value, t)) :
    readMembers (k + 1) (key.chars ++ s) =
      match skipSpace t with
      | ',' :: u => (readMembers k u).bind fun r =>
          some ((.str (Glyph.text key.glyphs), value) :: r.1, r.2)
      | '\x7d' :: rest => some ([(.str (Glyph.text key.glyphs), value)], rest)
      | _ => none := by
  rw [readMembers, skipSpace_key]
  simp only [readText_glyphs, Option.bind_eq_bind, Option.bind_some, skipSpace_gap,
    skipSpace_cons (c := ':') rfl, readValue_gap]
  rw [hread]
  rfl

theorem readMembers_last {key : Key} {value : Tree} (hread : readValue k s = some (value, t))
    (ht : skipSpace t = '\x7d' :: rest) :
    readMembers (k + 1) (key.chars ++ s) =
      some ([(.str (Glyph.text key.glyphs), value)], rest) := by
  simp [readMembers_key hread, ht]

theorem readMembers_next {key : Key} {value : Tree} {entries : Tree.Entries}
    (hread : readValue k s = some (value, t)) (ht : skipSpace t = ',' :: u)
    (hmore : readMembers k u = some (entries, rest)) :
    readMembers (k + 1) (key.chars ++ s) =
      some ((.str (Glyph.text key.glyphs), value) :: entries, rest) := by
  simp [readMembers_key hread, ht, hmore]

end

/-- What may stand behind a value belongs to no number. -/
theorem not_isNumberChar_gap (gap : Gap) {a : Char} (ha : isNumberChar a = false)
    (rest : List Char) : isNumberChar ((gap.val ++ a :: rest).headD '\x00') = false := by
  obtain ⟨gap, hgap⟩ := gap
  cases gap with
  | nil => exact ha
  | cons c gap =>
    have hspace := hgap c List.mem_cons_self
    simp only [isSpace, Bool.or_eq_true, beq_iff_eq] at hspace
    rcases hspace with ((rfl | rfl) | rfl) | rfl <;> rfl

theorem skipSpace_gap_cons (gap : Gap) {c : Char} (hc : isSpace c = false) (rest : List Char) :
    skipSpace (gap.val ++ c :: rest) = c :: rest := by
  rw [skipSpace_gap, skipSpace_cons hc]

theorem Items.skipSpace_chars (items : Items) (rest : List Char) :
    ∃ c more, skipSpace (items.chars ++ rest) = c :: more ∧ c ≠ ']' := by
  have hitem (before : Gap) (item : Value) (rest : List Char) :
      ∃ c more, skipSpace (before.val ++ (item.chars ++ rest)) = c :: more ∧ c ≠ ']' := by
    obtain ⟨c, more, hchars, hspace, hc⟩ := item.chars_eq_cons
    rw [hchars, List.cons_append, skipSpace_gap_cons before hspace]
    exact ⟨c, more ++ rest, rfl, hc⟩
  cases items with
  | last before item after => simpa [chars] using hitem before item (after.val ++ rest)
  | next before item after more =>
    simpa [chars] using hitem before item (after.val ++ ',' :: (more.chars ++ rest))

theorem Members.skipSpace_chars (members : Members) (rest : List Char) :
    ∃ c more, skipSpace (members.chars ++ rest) = c :: more ∧ c ≠ '\x7d' := by
  cases members with
  | last key value after =>
    rw [chars, List.append_assoc, List.append_assoc, skipSpace_key]
    exact ⟨_, _, rfl, by decide⟩
  | next key value after more =>
    rw [chars, List.append_assoc, List.append_assoc, List.append_assoc, skipSpace_key]
    exact ⟨_, _, rfl, by decide⟩

mutual

/-- A value is read whole, whatever follows that belongs to no number. -/
theorem Value.readValue_chars : ∀ (v : Value) (fuel : Nat) (rest : List Char),
    2 * v.chars.length < fuel → isNumberChar (rest.headD '\x00') = false →
    readValue fuel (v.chars ++ rest) = some (v.tree .plain, rest)
  | _, 0, _, hf, _ => absurd hf (Nat.not_lt_zero _)
  | .word w, k + 1, rest, _, _ => by
    rw [Value.chars, readValue_plain (by cases w <;> exact ⟨_, _, rfl, by decide⟩) k,
      w.readWord?_chars]
    rfl
  | .number n, k + 1, rest, _, hrest => by
    obtain ⟨c, more, hchars, hother⟩ := n.chars_eq_cons
    have hstart : ∃ c' more', n.chars ++ rest = c' :: more' ∧
        isSpace c' = false ∧ c' ≠ '"' ∧ c' ≠ '[' ∧ c' ≠ '\x7b' :=
      ⟨c, more ++ rest, by rw [hchars]; rfl, by simp [isSpace, hother], by simp [hother],
        by simp [hother], by simp [hother]⟩
    rw [Value.chars, readValue_plain hstart k, n.readWord?_chars]
    simp only [takeWhile_append_exact n.isNumberChar_chars hrest,
      dropWhile_append_exact n.isNumberChar_chars hrest, n.number?_chars]
    rfl
  | .string glyphs, k + 1, rest, _, _ => by
    rw [Value.chars, Glyph.quoted, List.cons_append, List.cons_append, List.append_assoc, readValue,
      skipSpace_cons rfl]
    simp only [List.singleton_append, readText_glyphs]
    rfl
  | .emptyArray gap, k + 1, rest, _, _ => by
    rw [Value.chars, List.cons_append, List.cons_append, List.append_assoc]
    exact readValue_emptyArray gap
  | .array items, k + 1, rest, hf, _ => by
    simp only [Value.chars, List.length_append, List.length_cons] at hf
    rw [Value.chars, List.cons_append, List.cons_append, List.append_assoc]
    exact readValue_array (items.skipSpace_chars _) (items.readItems_chars k rest (by omega))
  | .emptyObject gap, k + 1, rest, _, _ => by
    rw [Value.chars, List.cons_append, List.cons_append, List.append_assoc]
    exact readValue_emptyObject gap
  | .object members, k + 1, rest, hf, _ => by
    simp only [Value.chars, List.length_append, List.length_cons] at hf
    rw [Value.chars, List.cons_append, List.cons_append, List.append_assoc]
    exact readValue_object (members.skipSpace_chars _) (members.readMembers_chars k rest (by omega))

theorem Items.readItems_chars : ∀ (items : Items) (fuel : Nat) (rest : List Char),
    2 * items.chars.length + 1 < fuel →
    readItems fuel (items.chars ++ ']' :: rest) = some (items.trees .plain, rest)
  | _, 0, _, hf => absurd hf (Nat.not_lt_zero _)
  | .last before item after, k + 1, rest, hf => by
    simp only [Items.chars, List.length_append] at hf
    have hitem := item.readValue_chars k (after.val ++ ']' :: rest) (by omega)
      (not_isNumberChar_gap after rfl rest)
    rw [Items.chars, List.append_assoc, List.append_assoc]
    refine readItems_last ?_ (skipSpace_gap_cons after rfl rest)
    rw [readValue_gap, hitem]
  | .next before item after more, k + 1, rest, hf => by
    simp only [Items.chars, List.length_append, List.length_cons] at hf
    have hitem := item.readValue_chars k (after.val ++ ',' :: (more.chars ++ ']' :: rest))
      (by omega) (not_isNumberChar_gap after rfl _)
    rw [Items.chars, List.append_assoc, List.append_assoc, List.append_assoc, List.cons_append]
    refine readItems_next ?_ (skipSpace_gap_cons after rfl _)
      (more.readItems_chars k rest (by omega))
    rw [readValue_gap, hitem]

theorem Members.readMembers_chars : ∀ (members : Members) (fuel : Nat) (rest : List Char),
    2 * members.chars.length + 1 < fuel →
    readMembers fuel (members.chars ++ '\x7d' :: rest) = some (members.entries .plain, rest)
  | _, 0, _, hf => absurd hf (Nat.not_lt_zero _)
  | .last key value after, k + 1, rest, hf => by
    simp only [Members.chars, List.length_append] at hf
    have hvalue := value.readValue_chars k (after.val ++ '\x7d' :: rest) (by omega)
      (not_isNumberChar_gap after rfl rest)
    rw [Members.chars, List.append_assoc, List.append_assoc]
    exact readMembers_last hvalue (skipSpace_gap_cons after rfl rest)
  | .next key value after more, k + 1, rest, hf => by
    simp only [Members.chars, List.length_append, List.length_cons] at hf
    have hvalue := value.readValue_chars k (after.val ++ ',' :: (more.chars ++ '\x7d' :: rest))
      (by omega) (not_isNumberChar_gap after rfl _)
    rw [Members.chars, List.append_assoc, List.append_assoc, List.append_assoc, List.cons_append]
    exact readMembers_next hvalue (skipSpace_gap_cons after rfl _)
      (more.readMembers_chars k rest (by omega))

end

/-- Every text is read as the tree that it denotes. -/
theorem Written.read?_chars (w : Written) :
    read? (String.ofList w.chars) = some (w.tree .plain) := by
  have hfuel : 2 * w.value.chars.length < 2 * w.chars.length + 2 := by
    simp only [Written.chars, List.length_append]
    omega
  have hafter : isNumberChar (w.after.val.headD '\x00') = false := by
    simpa using not_isNumberChar_gap w.after (a := '\x00') rfl []
  have hread : readValue (2 * w.chars.length + 2) w.chars = some (w.tree .plain, w.after.val) := by
    have hvalue := w.value.readValue_chars _ w.after.val hfuel hafter
    rwa [← readValue_gap _ w.before, ← List.append_assoc] at hvalue
  have hspace : skipSpace w.after.val = [] := by
    have hskip := skipSpace_gap w.after []
    rwa [List.append_nil] at hskip
  rw [read?, String.length_ofList, String.toList_ofList, hread]
  simp [hspace]

end ApiScaffold.Json
