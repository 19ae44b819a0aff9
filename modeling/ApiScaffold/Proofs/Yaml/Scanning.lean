import ApiScaffold.Proofs.Yaml.QuotedScalar

namespace ApiScaffold.Yaml.Scanner
open Spots

/-- A scanner with a text in front of it, outside of block collections and with no required key. -/
structure At (i l : Nat) (text : List Char) (s : Scanner) : Prop where
  indent : s.indent = -1
  outer : s.outer = []
  places : ∀ p ∈ s.places, p.2.required = false
  bound : s.rest.length ≤ s.bound + 1
  spells : Spells i l text s.rest

/-- A scanner with a gap and then a text in front of it. -/
def Before (text : List Char) (s : Scanner) : Prop :=
  ∃ i l gap, (∀ c ∈ gap, isGapChar c = true) ∧ At i l (gap ++ text) s

variable {i l : Nat} {gap text : List Char} {s t : Scanner}

theorem At.shorter {i' l' : Nat} {more : List Char} (h : At i l text s) (h' : At i' l' more t)
    (hlt : more.length < text.length) : t.rest.length < s.rest.length := by
  rw [h.spells.length_eq, h'.spells.length_eq]
  omega

theorem At.before (h : At i l text s) : Before text s :=
  ⟨i, l, [], by simp, h⟩

theorem Before.of_gap (h : Before (gap ++ text) s) (hgap : ∀ c ∈ gap, isGapChar c = true) :
    Before text s := by
  obtain ⟨i, l, first, hfirst, hat⟩ := h
  refine ⟨i, l, first ++ gap, List.forall_mem_append.mpr ⟨hfirst, hgap⟩, ?_⟩
  rw [List.append_assoc]
  exact hat

theorem dropPlace_eq (h : ∀ p ∈ s.places, p.2.required = false) :
    ∃ places, s.dropPlace = .ok { s with places } ∧ ∀ p ∈ places, p ∈ s.places := by
  rw [dropPlace]
  cases hplace : s.place? with
  | none => exact ⟨s.places, rfl, fun _ hp => hp⟩
  | some p =>
    obtain ⟨q, hq, rfl⟩ := Option.map_eq_some_iff.mp hplace
    refine ⟨s.places.filter (·.1 != s.flow), if_neg ?_, fun p hp => (List.mem_filter.mp hp).1⟩
    simp [h q (List.mem_of_find?_eq_some hq)]

/-- A place that is noted here requires no key; it is noted only where a key may begin. -/
theorem savePlace_eq (h : At i l text s) :
    ∃ places, s.savePlace = .ok { s with places } ∧ (∀ p ∈ places, p.2.required = false) ∧
      (s.allowsKey = true → ∃ column more,
        places = (s.flow, ⟨s.size, false, i, l, column⟩) :: more) := by
  rw [savePlace]
  by_cases hallows : s.allowsKey = true
  · obtain ⟨places, hdrop, hmem⟩ := dropPlace_eq h.places
    have hrequired : decide (s.flow = 0 ∧ s.indent = (column s.rest : Int)) = false := by
      rw [h.indent]
      simp only [decide_eq_false_iff_not]
      omega
    rw [if_pos hallows, hdrop]
    refine ⟨(s.flow, ⟨s.size, false, i, l, column s.rest⟩) :: places, ?_,
      List.forall_mem_cons.mpr ⟨rfl, fun p hp => h.places p (hmem p hp)⟩,
      fun _ => ⟨column s.rest, places, rfl⟩⟩
    show Except.ok _ = _
    simp only [hrequired, h.spells.index_eq, h.spells.line_eq]
  · exact ⟨s.places, if_neg hallows, h.places, fun hs => absurd hs hallows⟩

/-- Indentation closes nothing where no block collection is open. -/
theorem unwind_eq (hindent : s.indent = -1) (houter : s.outer = []) {column : Int}
    (hcolumn : -1 ≤ column) : s.unwind column = s := by
  rw [unwind]
  split
  · rfl
  · rw [houter, closeBlocks, if_neg (by omega)]

/-- A scanner that is over a gap, without the places that are too far away from there. -/
def pastGap (s : Scanner) (allowsKey : Bool) (rest : Spots) : Scanner :=
  { s with
    allowsKey
    rest
    places := s.places.filter fun p => !({ s with rest } : Scanner).isStale p.2 }

/-- A place that was noted on this line and not far off is noted still. -/
theorem place?_pastGap {p : KeyPlace} {others : List (Nat × KeyPlace)} {allows : Bool} {rest : Spots}
    (hplaces : s.places = (s.flow, p) :: others) (hline : p.line = line rest)
    (hnear : index rest - p.index ≤ 1024) :
    (s.pastGap allows rest).place? = some p := by
  have hkept : (s.pastGap allows rest).places = (s.flow, p) ::
      others.filter fun p => !({ s with rest } : Scanner).isStale p.2 := by
    rw [pastGap, hplaces, List.filter_cons_of_pos]
    simp only [isStale, hline, bne_self_eq_false, Bool.false_or, Bool.not_eq_true',
      decide_eq_false_iff_not]
    omega
  rw [place?, hkept]
  simp [pastGap]

/-- The next token is read behind the gap, where the same places are noted that are near enough. -/
theorem At.step_eq (h : At i l (gap ++ text) s) (hgap : ∀ c ∈ gap, isGapChar c = true)
    (hend : endsGap (text.headD '\x00') = true) :
    ∃ l' allows rest, At (i + gap.length) l' text (s.pastGap allows rest) ∧
      ((∀ c ∈ gap, isBreak c = false) → l' = l) ∧ (s.flow ≠ 0 → allows = s.allowsKey) ∧
      s.step = if isEnd (text.headD '\x00') then (s.pastGap allows rest).finish
        else (s.pastGap allows rest).readToken := by
  have hmark : ¬ (index s.rest = 0 ∧ peek s.rest = '\ufeff') := by
    rw [h.spells.peek_eq]
    cases gap with
    | nil =>
      simp only [endsGap, Bool.and_eq_true, bne_iff_ne, ne_eq] at hend
      exact fun hpeek => hend.2 hpeek.2
    | cons c gap =>
      rintro ⟨-, rfl⟩
      cases hgap '\ufeff' List.mem_cons_self
  have hlength : gap.length < s.bound + 1 := by
    have hrest := h.spells.length_eq
    have hbound := h.bound
    rw [List.length_append] at hrest
    omega
  obtain ⟨allows, hgapFrom, hallows⟩ :=
    h.spells.gapFrom_eq hgap hend (s.flow != 0) s.allowsKey hlength
  obtain ⟨l', hdrop, hline⟩ := h.spells.drop
  have hskip : s.skipGap = { s with allowsKey := allows, rest := s.rest.drop gap.length } := by
    rw [skipGap, if_neg hmark, hgapFrom]
  have hstale : s.skipGap.dropStale = .ok (s.pastGap allows (s.rest.drop gap.length)) := by
    rw [hskip, dropStale, if_neg]
    · rfl
    · simp only [List.any_eq_true, Bool.and_eq_true]
      rintro ⟨p, hp, -, hrequired⟩
      rw [h.places p hp] at hrequired
      cases hrequired
  refine ⟨l', allows, s.rest.drop gap.length, ⟨h.indent, h.outer, ?_, ?_, hdrop⟩, hline, ?_, ?_⟩
  · exact fun p hp => h.places p (List.mem_filter.mp hp).1
  · exact Nat.le_trans (by simp [pastGap]) h.bound
  · exact fun hflow => hallows (by simpa using hflow)
  · have hcolumn : (-1 : Int) ≤ column (s.pastGap allows (s.rest.drop gap.length)).rest := by omega
    have hunwind :=
      unwind_eq (s := s.pastGap allows (s.rest.drop gap.length)) h.indent h.outer hcolumn
    rw [step, hstale]
    show (if isEnd (peek _) then finish _ else readToken _) = _
    rw [hunwind, ← hdrop.peek_eq]
    rfl

/-- The brackets of lists and the braces of maps. -/
inductive Bracket where
  | list
  | map

namespace Bracket

def opening : Bracket → Char
  | list => '['
  | map => '{'

def closing : Bracket → Char
  | list => ']'
  | map => '}'

def start : Bracket → Token
  | list => .flowSequenceStart
  | map => .flowMappingStart

def stop : Bracket → Token
  | list => .flowSequenceEnd
  | map => .flowMappingEnd

end Bracket

/-- Whether a plain scalar of one chunk begins with these characters. -/
def beginsChunk : List Char → Bool
  | '-' :: d :: _ => d.isDigit
  | a :: _ => a.isDigit || a.isLower
  | [] => false

/-- The letters and digits that may begin a chunk indicate nothing else. -/
theorem ne_of_isWord {a b : Char} (ha : (a.isDigit || a.isLower) = true)
    (hb : (b.isDigit || b.isLower) = false) : a ≠ b := by
  rintro rfl
  rw [ha] at hb
  cases hb

theorem beginsChunk_of_isWord {a : Char} (ha : (a.isDigit || a.isLower) = true)
    (rest : List Char) : beginsChunk (a :: rest) = true := by
  unfold beginsChunk
  split
  · rename_i heq
    obtain rfl := (List.cons.inj heq).1
    cases ha
  · rename_i heq
    rw [← (List.cons.inj heq).1, ha]
  · rename_i heq
    cases heq

/-- A scanner behind a token of so many characters. -/
def behind (s : Scanner) (token : Token) (length flow : Nat) (allowsKey : Bool)
    (places : List (Nat × KeyPlace)) : Scanner :=
  { s.emit token with flow, allowsKey, places, rest := s.rest.drop length }

section
variable {first more : List Char} {token : Token} {flow : Nat} {allows : Bool}
  {places : List (Nat × KeyPlace)}

theorem At.behind (h : At i l (first ++ more) s) (token : Token) (flow : Nat) (allows : Bool)
    (hplaces : ∀ p ∈ places, p.2.required = false) :
    ∃ l', At (i + first.length) l' more (s.behind token first.length flow allows places) ∧
      ((∀ c ∈ first, isBreak c = false) → l' = l) := by
  obtain ⟨l', hdrop, hline⟩ := h.spells.drop
  exact ⟨l', ⟨h.indent, h.outer, hplaces,
    Nat.le_trans (by simp [Scanner.behind]) h.bound, hdrop⟩, hline⟩

theorem readToken_open (b : Bracket) (h : At i l (b.opening :: more) s) :
    s.readToken = s.openFlow b.start := by
  have hpeek : peek s.rest = b.opening := h.spells.peek_eq
  cases b <;> simp [readToken, isMark, hpeek, Bracket.opening, Bracket.start]

theorem readToken_close (b : Bracket) (h : At i l (b.closing :: more) s) :
    s.readToken = s.closeFlow b.stop := by
  have hpeek : peek s.rest = b.closing := h.spells.peek_eq
  cases b <;> simp [readToken, isMark, hpeek, Bracket.closing, Bracket.stop]

theorem readToken_entry (h : At i l (',' :: more) s) : s.readToken = s.readFlowEntry := by
  have hpeek : peek s.rest = ',' := h.spells.peek_eq
  simp [readToken, isMark, hpeek]

theorem readToken_value (h : At i l (':' :: more) s) (hflow : s.flow ≠ 0) :
    s.readToken = s.readValue := by
  have hpeek : peek s.rest = ':' := h.spells.peek_eq
  simp [readToken, isMark, hpeek, hflow]

theorem readToken_quoted (h : At i l ('"' :: more) s) :
    s.readToken = s.readKeyPart fun r =>
      (readQuoted s.bound true (r.drop 1)).map fun (text, rest) => (.scalar text false, rest) := by
  have hpeek : peek s.rest = '"' := h.spells.peek_eq
  simp [readToken, isMark, hpeek]

theorem isGapOrTab_of_isWord {a : Char} (ha : (a.isDigit || a.isLower) = true) :
    isGapOrTab a = false := by
  have hne (b : Char) (hb : (b.isDigit || b.isLower) = false) : (a == b) = false :=
    beq_false_of_ne (ne_of_isWord ha hb)
  simp [isGapOrTab, isGap, isBreakOrEnd, isBreak, isEnd, hne '\t' rfl, hne ' ' rfl, hne '\n' rfl,
    hne '\r' rfl, hne '\x85' rfl, hne '\u2028' rfl, hne '\u2029' rfl, hne '\x00' rfl]

theorem readToken_word {a : Char} (h : At i l (a :: more) s)
    (ha : (a.isDigit || a.isLower) = true) : s.readToken = s.readPlainScalar := by
  have hpeek : peek s.rest = a := h.spells.peek_eq
  have hne (b : Char) (hb : (b.isDigit || b.isLower) = false) : a ≠ b := ne_of_isWord ha hb
  have hplain : beginsPlain (s.flow != 0) s.rest = true := by
    have hnone : a ∉ "-?:,[]{}#&*!|>'\"%@`".toList := by
      intro hmem
      have hall : ∀ b ∈ "-?:,[]{}#&*!|>'\"%@`".toList, (b.isDigit || b.isLower) = false := by
        simp
      exact hne a (hall a hmem) rfl
    simp only [beginsPlain, hpeek, isGapOrTab_of_isWord ha, hnone]
    rfl
  rw [readToken]
  simp [isMark, hpeek, hplain, hne '%' rfl, hne '-' rfl, hne '.' rfl, hne '[' rfl, hne '{' rfl,
    hne ']' rfl, hne '}' rfl, hne ',' rfl, hne '?' rfl, hne ':' rfl, hne '*' rfl, hne '&' rfl,
    hne '!' rfl, hne '|' rfl, hne '>' rfl, hne '\'' rfl, hne '"' rfl]

theorem readToken_minus {d : Char} (h : At i l ('-' :: d :: more) s) (hd : d.isDigit = true) :
    s.readToken = s.readPlainScalar := by
  have hpeek : peek s.rest = '-' := h.spells.peek_eq
  have hspells : Spells i l (['-'] ++ (d :: more)) s.rest := h.spells
  have hnext : peekAt 1 s.rest = d := hspells.peekAt_eq
  have hword : (d.isDigit || d.isLower) = true := by rw [hd]; rfl
  have hdash : d ≠ '-' := ne_of_isWord hword rfl
  have hgap := isGapOrTab_of_isWord hword
  simp [readToken, isMark, beginsPlain, hpeek, hnext, hdash, hgap]

theorem readToken_plain (h : At i l (first ++ more) s) (hbegins : beginsChunk first = true) :
    s.readToken = s.readPlainScalar := by
  unfold beginsChunk at hbegins
  split at hbegins
  · exact readToken_minus h hbegins
  · exact readToken_word h hbegins
  · cases hbegins

end

/-- Steps of a scanner before the end of its text, each of which takes something off it. -/
inductive Steps : Scanner → Scanner → Prop where
  | refl (s : Scanner) : Steps s s
  | next {s m t : Scanner} (first : s.step = .ok m) (goesOn : m.tokens.head? ≠ some .streamEnd)
    (shorter : m.rest.length < s.rest.length) (more : Steps m t) : Steps s t

theorem Steps.trans {u : Scanner} (h : Steps s t) (h' : Steps t u) : Steps s u := by
  induction h with
  | refl => exact h'
  | next first goesOn shorter _ ih => exact .next first goesOn shorter (ih h')

seal step in
theorem run_succ (fuel : Nat) (s : Scanner) :
    s.run (fuel + 1) =
      match s.step with
      | .error f => ⟨s.settled, some f⟩
      | .ok next =>
        if next.tokens.head? = some .streamEnd then ⟨next.tokens.reverse, none⟩
        else next.run fuel := by
  rfl

/-- As many steps are allowed as there are characters left. -/
theorem Steps.run_eq (h : Steps s t) {fuel : Nat} (hf : s.rest.length ≤ fuel) :
    ∃ left, t.rest.length ≤ left ∧ s.run fuel = t.run left := by
  induction h generalizing fuel with
  | refl => exact ⟨fuel, hf, rfl⟩
  | @next s m t first goesOn shorter _ ih =>
    obtain ⟨fuel, rfl⟩ := Nat.exists_eq_add_of_le' (show 1 ≤ fuel by omega)
    obtain ⟨left, hleft, hrun⟩ := ih (show m.rest.length ≤ fuel by omega)
    refine ⟨left, hleft, ?_⟩
    rw [run_succ, first, ← hrun]
    exact if_neg goesOn

/-- A scanner goes on to another one and reads tokens on its way. -/
structure Passes (s : Scanner) (tokens : List Token) (t : Scanner) : Prop where
  steps : Steps s t
  tokens : t.tokens = tokens.reverse ++ s.tokens

theorem Passes.trans {u : Scanner} {ts ts' : List Token} (h : Passes s ts t)
    (h' : Passes t ts' u) : Passes s (ts ++ ts') u :=
  ⟨h.steps.trans h'.steps, by rw [h'.tokens, h.tokens]; simp⟩

/-- A token that is read where it stands is read behind a gap. -/
theorem Before.token (first : List Char) {more : List Char} {token : Token} {Q : Nat → Bool → Prop}
    (h : Before (first ++ more) s) (hend : endsGap ((first ++ more).headD '\x00') = true)
    (hne : first ≠ []) (hstop : isEnd ((first ++ more).headD '\x00') = false)
    (htoken : token ≠ .streamEnd)
    (hread : ∀ i l u, At i l (first ++ more) u → u.flow = s.flow →
      ∃ flow allows places, u.readToken = .ok (u.behind token first.length flow allows places) ∧
        (∀ p ∈ places, p.2.required = false) ∧ Q flow allows) :
    ∃ t, Passes s [token] t ∧ Before more t ∧ Q t.flow t.allowsKey := by
  obtain ⟨i, l, gap, hgap, hat⟩ := h
  obtain ⟨l', allows, rest, hover, -, -, hstep⟩ := hat.step_eq hgap hend
  obtain ⟨flow, allows', places, htok, hplaces, hq⟩ := hread _ _ _ hover rfl
  obtain ⟨l'', hbehind, -⟩ := hover.behind token flow allows' hplaces
  rw [hstop, htok] at hstep
  refine ⟨_, ⟨.next hstep ?_ ?_ (.refl _), rfl⟩, hbehind.before, hq⟩
  · simpa [behind, emit] using htoken
  · have hpos := List.length_pos_iff.mpr hne
    refine hat.shorter hbehind ?_
    rw [List.length_append, List.length_append]
    omega

section
variable {more : List Char}

theorem Before.open (b : Bracket) (h : Before (b.opening :: more) s) :
    ∃ t, Passes s [b.start] t ∧ Before more t ∧ t.flow = s.flow + 1 ∧ t.allowsKey = true := by
  refine Before.token [b.opening] (Q := fun f a => f = s.flow + 1 ∧ a = true) h
    (by cases b <;> rfl) (by simp) (by cases b <;> rfl) (by cases b <;> simp [Bracket.start]) ?_
  intro i l u hat hflow
  obtain ⟨places, hsave, hplaces, -⟩ := savePlace_eq hat
  refine ⟨u.flow + 1, true, places, ?_, hplaces, by rw [hflow], rfl⟩
  rw [readToken_open b hat, openFlow, hsave]
  rfl

theorem Before.close (b : Bracket) (h : Before (b.closing :: more) s) (hopen : s.flow ≠ 0) :
    ∃ t, Passes s [b.stop] t ∧ Before more t ∧ t.flow = s.flow - 1 := by
  refine Before.token [b.closing] (Q := fun f _ => f = s.flow - 1) h
    (by cases b <;> rfl) (by simp) (by cases b <;> rfl) (by cases b <;> simp [Bracket.stop]) ?_
  intro i l u hat hflow
  obtain ⟨places, hdrop, hmem⟩ := dropPlace_eq hat.places
  refine ⟨u.flow - 1, false, places, ?_, fun p hp => hat.places p (hmem p hp), by rw [hflow]⟩
  rw [readToken_close b hat, closeFlow, hdrop]
  exact if_neg (by rw [hflow]; exact hopen)

theorem Before.entry (h : Before (',' :: more) s) :
    ∃ t, Passes s [.flowEntry] t ∧ Before more t ∧ t.flow = s.flow ∧ t.allowsKey = true := by
  refine Before.token [','] (Q := fun f a => f = s.flow ∧ a = true) h rfl (by simp) rfl
    (by simp) ?_
  intro i l u hat hflow
  obtain ⟨places, hdrop, hmem⟩ := dropPlace_eq hat.places
  refine ⟨u.flow, true, places, ?_, fun p hp => hat.places p (hmem p hp), hflow, rfl⟩
  rw [readToken_entry hat, readFlowEntry, hdrop]
  rfl

theorem head_chunk {chunk : List Char} (h : beginsChunk chunk = true) (more : List Char) :
    endsGap ((chunk ++ more).headD '\x00') = true ∧
      isEnd ((chunk ++ more).headD '\x00') = false := by
  unfold beginsChunk at h
  split at h
  · exact ⟨rfl, rfl⟩
  · rename_i a _ _
    have hgap := isGapOrTab_of_isWord h
    have hsharp : a ≠ '#' := ne_of_isWord h rfl
    have hmark : a ≠ '\ufeff' := ne_of_isWord h rfl
    simp only [isGapOrTab, isGap, isBreakOrEnd, Bool.or_eq_false_iff, beq_eq_false_iff_ne] at hgap
    obtain ⟨-, hspace, hbreak, hend⟩ := hgap
    exact ⟨by simp [endsGap, hspace, hbreak, hsharp, hmark], by simp [hend]⟩
  · cases h

/-- A plain scalar is read with the gap behind it. -/
theorem Before.plain {chunk gap : List Char} (h : Before (chunk ++ (gap ++ more)) s)
    (hbegins : beginsChunk chunk = true) (hchunk : ∀ c ∈ chunk, isChunkChar c = true)
    (hgap : ∀ c ∈ gap, isGapChar c = true)
    (hend : endsValue (s.flow != 0) (more.headD '\x00') = true) :
    ∃ t, Passes s [.scalar (Text.ofChars chunk) true] t ∧ Before more t ∧ t.flow = s.flow := by
  obtain ⟨hgapEnd, hstop⟩ := head_chunk hbegins (gap ++ more)
  rw [← List.append_assoc] at h hgapEnd hstop
  have hne : chunk ≠ [] := by
    rintro rfl
    cases hbegins
  refine Before.token _ (Q := fun f _ => f = s.flow) h hgapEnd (by simp [hne]) hstop (by simp) ?_
  intro i l u hat hflow
  obtain ⟨places, hsave, hplaces, -⟩ := savePlace_eq hat
  have hspells := hat.spells
  rw [List.append_assoc] at hspells
  have hbound : 0 < u.bound := by
    have hrest := hspells.length_eq
    have hpos := List.length_pos_iff.mpr hne
    have hwhole := hat.bound
    rw [List.length_append] at hrest
    omega
  rw [← hflow] at hend
  obtain ⟨broken, hread⟩ := hspells.readPlain_eq hne hchunk hgap hend hbound (u.indent + 1)
  refine ⟨u.flow, broken, places, ?_, hplaces, hflow⟩
  rw [List.append_assoc] at hat
  rw [readToken_plain hat hbegins, readPlainScalar, hsave]
  simp only [bind, Except.bind, hread]
  rfl

/-- A quoted scalar is read, with the place where it began if a key may begin there. -/
theorem At.readToken_string {glyphs : List Json.Glyph}
    (h : At i l (Json.Glyph.quoted glyphs ++ more) s)
    (hinline : ∀ g ∈ glyphs, g.isInline = true) :
    ∃ places, s.readToken = .ok (s.behind (.scalar (Json.Glyph.points glyphs) false)
        (Json.Glyph.quoted glyphs).length s.flow false places) ∧
      (∀ p ∈ places, p.2.required = false) ∧
      (s.allowsKey = true → ∃ column more,
        places = (s.flow, ⟨s.size, false, i, l, column⟩) :: more) := by
  obtain ⟨places, hsave, hplaces, hnoted⟩ := savePlace_eq h
  refine ⟨places, ?_, hplaces, hnoted⟩
  have hinner : At i l (['"'] ++ (glyphs.flatMap Json.Glyph.chars ++ '"' :: more)) s := by
    simpa [Json.Glyph.quoted] using h
  obtain ⟨l', hdrop, -⟩ := hinner.spells.drop
  have hf : (glyphs.flatMap Json.Glyph.chars).length < s.bound + 1 := by
    have hrest := hdrop.length_eq
    have hbound := h.bound
    simp only [List.length_append, List.length_drop, List.length_cons] at hrest
    omega
  have hread := hdrop.quotedFrom_glyphs s.bound hinline hf
  have hlength : (Json.Glyph.quoted glyphs).length =
      ['"'].length + ((glyphs.flatMap Json.Glyph.chars).length + 1) := by
    simp only [Json.Glyph.quoted, List.length_cons, List.length_append, List.length_nil]
    omega
  rw [List.drop_drop] at hread
  rw [readToken_quoted hinner, readKeyPart, hsave]
  simp only [bind, Except.bind, readQuoted]
  rw [show s.rest.drop 1 = s.rest.drop ['"'].length from rfl, hread, hlength]
  rfl

theorem Before.string {glyphs : List Json.Glyph} (h : Before (Json.Glyph.quoted glyphs ++ more) s)
    (hinline : ∀ g ∈ glyphs, g.isInline = true) :
    ∃ t, Passes s [.scalar (Json.Glyph.points glyphs) false] t ∧ Before more t ∧
      t.flow = s.flow := by
  refine Before.token _ (Q := fun f _ => f = s.flow) h rfl (by simp [Json.Glyph.quoted]) rfl
    (by simp) ?_
  intro i l u hat hflow
  obtain ⟨places, hread, hplaces, -⟩ := hat.readToken_string hinline
  exact ⟨u.flow, false, places, hread, hplaces, hflow⟩

/-- A colon behind a noted place puts a key there. -/
theorem At.readToken_colon {p : KeyPlace} (h : At i l (':' :: more) s) (hflow : s.flow ≠ 0)
    (hplace : s.place? = some p) :
    ∃ t, s.readToken = .ok t ∧ t.tokens = .value :: insertAt (s.size - p.count) .key s.tokens ∧
      At (i + 1) l more t ∧ t.flow = s.flow := by
  have hspells : Spells i l ([':'] ++ more) s.rest := h.spells
  obtain ⟨l', hdrop, hline⟩ := hspells.drop
  obtain rfl := hline (List.forall_mem_singleton.mpr rfl)
  refine ⟨{ ({ s with places := s.places.filter (·.1 != s.flow) }.insert p.count .key).emit
      .value with allowsKey := false, rest := s.rest.drop 1 }, ?_, rfl, ⟨h.indent, h.outer,
      fun q hq => h.places q (List.mem_filter.mp hq).1, ?_, hdrop⟩, rfl⟩
  · rw [readToken_value h hflow, readValue, hplace]
    simp only [insert, hflow, if_false]
  · exact Nat.le_trans (by simp) h.bound

theorem not_isBreak_of_mem_quoted {glyphs : List Json.Glyph}
    (hinline : ∀ g ∈ glyphs, g.isInline = true) :
    ∀ c ∈ Json.Glyph.quoted glyphs, isBreak c = false := by
  simp only [Json.Glyph.quoted, List.mem_append, List.mem_cons, List.mem_flatMap, List.not_mem_nil,
    or_false]
  rintro c ((rfl | ⟨g, hg, hc⟩) | rfl)
  · rfl
  · rcases Json.Glyph.mem_chars hc with ⟨hraw, rfl⟩ | hvisible
    · simpa [Json.Glyph.isInline] using hinline _ hg
    · exact not_isBreak_of_isVisible hvisible
  · rfl

/-- A colon makes a key of the string before it, if that began on its line and is not too long. -/
theorem Before.key {glyphs : List Json.Glyph} {gap : List Char}
    (h : Before (Json.Glyph.quoted glyphs ++ (gap ++ ':' :: more)) s)
    (hinline : ∀ g ∈ glyphs, g.isInline = true) (hgap : ∀ c ∈ gap, (c == ' ') = true)
    (hlength : (Json.Glyph.quoted glyphs ++ gap).length ≤ 1024) (hflow : s.flow ≠ 0)
    (hallows : s.allowsKey = true) :
    ∃ t, Passes s [.key, .scalar (Json.Glyph.points glyphs) false, .value] t ∧ Before more t ∧
      t.flow = s.flow := by
  obtain ⟨i, l, before, hbefore, hat⟩ := h
  obtain ⟨l₁, allows, rest, hover, -, hkeep, hstep⟩ := hat.step_eq hbefore rfl
  obtain ⟨places, hread, hplaces, hnoted⟩ := hover.readToken_string hinline
  obtain ⟨column, others, rfl⟩ := hnoted (by rw [← hallows]; exact hkeep hflow)
  obtain ⟨l₂, hbehind, hline⟩ :=
    hover.behind (.scalar (Json.Glyph.points glyphs) false) s.flow false hplaces
  obtain rfl := hline (not_isBreak_of_mem_quoted hinline)
  have hspace : ∀ c ∈ gap, isGapChar c = true ∧ isBreak c = false := by
    intro c hc
    obtain rfl : c = ' ' := by simpa using hgap c hc
    decide
  obtain ⟨l₃, allows₃, rest₃, hover₃, hline₃, -, hstep₃⟩ :=
    hbehind.step_eq (fun c hc => (hspace c hc).1) rfl
  obtain rfl := hline₃ fun c hc => (hspace c hc).2
  have hnear : index rest₃ - (i + before.length) ≤ 1024 := by
    rw [show index rest₃ = _ from hover₃.spells.index_eq]
    rw [List.length_append] at hlength
    omega
  obtain ⟨t, hcolon, htokens, hmore, hflow'⟩ := hover₃.readToken_colon hflow
    (place?_pastGap rfl hover₃.spells.line_eq.symm hnear)
  rw [hread] at hstep
  rw [hcolon] at hstep₃
  refine ⟨t, ⟨.next hstep ?_ ?_ (.next hstep₃ ?_ ?_ (.refl t)), ?_⟩, hmore.before, hflow'⟩
  · simp [behind, emit]
  · refine hat.shorter hbehind ?_
    simp only [List.length_append, Json.Glyph.quoted, List.length_cons]
    omega
  · simp [htokens]
  · refine hbehind.shorter hmore ?_
    simp only [List.length_append, List.length_cons]
    omega
  · rw [htokens]
    simp [pastGap, behind, emit, insertAt]

end

/-- The stream ends at the end of the text. -/
theorem Before.finish (h : Before [] s) :
    ∃ t, s.step = .ok t ∧ t.tokens = .streamEnd :: s.tokens := by
  obtain ⟨i, l, gap, hgap, hat⟩ := h
  obtain ⟨l', allows, rest, hover, -, -, hstep⟩ := hat.step_eq hgap rfl
  obtain ⟨places, hdrop, -⟩ := dropPlace_eq hover.places
  refine ⟨({ s.pastGap allows rest with places } : Scanner).emit .streamEnd, hstep.trans ?_, rfl⟩
  show Scanner.finish _ = _
  rw [Scanner.finish, unwind_eq hover.indent hover.outer (Int.le_refl _), hdrop]
  rfl

theorem before_ofText (text : List Char) : Before text (ofText text) := by
  have hspells : Spells 0 0 text (ofText text).rest := spells_spotsFrom 0 0 0 text
  have hlength := hspells.length_eq
  exact At.before ⟨rfl, rfl, by simp [ofText], Nat.le_of_eq hlength, hspells⟩

end ApiScaffold.Yaml.Scanner

namespace ApiScaffold.Yaml
open Scanner

/-- The tokens of a text that is scanned to its end. -/
theorem Tokens.ofText_eq {text : List Char} {tokens : List Token} {t : Scanner}
    (hprintable : ∀ c ∈ text, isPrintable c = true)
    (hpasses : Passes (Scanner.ofText text) tokens t) (hend : Before [] t) :
    Tokens.ofText (Text.ofChars text) = ⟨tokens ++ [.streamEnd], none⟩ := by
  have hchars : (Text.ofChars text).map CodePoint.charOrNul = text := by
    simp [Text.ofChars, CodePoint.charOrNul, Function.comp_def]
  obtain ⟨u, hstep, htokens⟩ := hend.finish
  have hfuel : (Scanner.ofText text).rest.length ≤ text.length + 1 :=
    Nat.le_of_eq (spells_spotsFrom 0 0 0 text).length_eq
  obtain ⟨left, hleft, hrun⟩ := hpasses.steps.run_eq hfuel
  obtain ⟨i, l, gap, -, hat⟩ := hend
  obtain ⟨left, rfl⟩ := Nat.exists_eq_add_of_le' (show 1 ≤ left by
    rw [hat.spells.length_eq] at hleft
    omega)
  rw [Tokens.ofText, hchars, if_pos (List.all_eq_true.mpr hprintable), hrun, run_succ, hstep]
  simp only [htokens, List.head?_cons, if_true, hpasses.tokens]
  simp [Scanner.ofText]

end ApiScaffold.Yaml
