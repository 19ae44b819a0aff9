import ApiScaffold.Number.Numeral
import ApiScaffold.Proofs.Json.Grammar
import ApiScaffold.Proofs.Yaml.Flow
import ApiScaffold.Proofs.Yaml.Scanning

namespace ApiScaffold.Json
open Yaml

mutual

/-- A value with each of its numbers as it is written. -/
def Value.flow : Value → Flow
  | .word w => .scalar (Text.ofChars w.chars) true
  | .number n => .scalar (Text.ofChars n.chars) true
  | .string glyphs => .scalar (Glyph.points glyphs) false
  | .emptyArray _ => .list []
  | .array items => .list items.flows
  | .emptyObject _ => .map []
  | .object members => .map members.flows

def Items.flows : Items → List Flow
  | .last _ item _ => [item.flow]
  | .next _ item _ more => item.flow :: more.flows

def Members.flows : Members → List (Text × Flow)
  | .last key value _ => [(Glyph.points key.glyphs, value.flow)]
  | .next key value _ more => (Glyph.points key.glyphs, value.flow) :: more.flows

end

/-- Whether a glyph may stand in a YAML text. -/
def Glyph.isPrintable : Glyph → Bool
  | raw c _ => Yaml.isPrintable c
  | _ => true

/-- What is no different in YAML before scalars are looked at, and which integers have a value. -/
def Check.yaml : Check where
  gap g := g.val.all isGapChar
  number n := !n.isInteger || decide (n.whole.length ≤ Numeral.digitLimit)
  string glyphs := glyphs.all fun g => g.isInline && g.isPrintable
  key k := k.behind.val.all (· == ' ') && decide (k.label.length ≤ 1024)

theorem isChunkChar_of_isNumberChar {c : Char} (h : isNumberChar c = true) :
    isChunkChar c = true := by
  simp only [isNumberChar, Bool.or_eq_true, beq_iff_eq] at h
  rcases h with ((((hdigit | rfl) | rfl) | rfl) | rfl) | rfl
  · have hword : (c.isDigit || c.isLower) = true := by rw [hdigit]; rfl
    have hne (b : Char) (hb : (b.isDigit || b.isLower) = false) : c ≠ b :=
      Scanner.ne_of_isWord hword hb
    have hflow : isFlowIndicator c = false := by
      simp [isFlowIndicator, hne ',' rfl, hne '[' rfl, hne ']' rfl, hne '{' rfl, hne '}' rfl]
    simp [isChunkChar, Scanner.isGapOrTab_of_isWord hword, hne ':' rfl, hne '?' rfl, hne '#' rfl,
      hflow]
  all_goals decide

theorem Number.beginsChunk_chars (n : Number) : Scanner.beginsChunk n.chars = true := by
  obtain ⟨d, rest, hsize, hd⟩ := n.size_eq_cons
  rw [chars, hsize]
  cases n.negative
  · exact Scanner.beginsChunk_of_isWord (by rw [hd]; rfl) _
  · simp [Scanner.beginsChunk, hd]

theorem Word.isChunk (w : Word) :
    Scanner.beginsChunk w.chars = true ∧ ∀ c ∈ w.chars, isChunkChar c = true :=
  ⟨by cases w <;> rfl, List.all_eq_true.mp (by cases w <;> rfl)⟩

theorem Glyph.isInline_of_yaml {glyphs : List Glyph} (h : Check.yaml.string glyphs = true) :
    ∀ g ∈ glyphs, g.isInline = true := by
  intro g hg
  have hboth := List.all_eq_true.mp h g hg
  rw [Bool.and_eq_true] at hboth
  exact hboth.1

theorem Gap.isGapChar_of_yaml {gap : Gap} (h : Check.yaml.gap gap = true) :
    ∀ c ∈ gap.val, isGapChar c = true :=
  List.all_eq_true.mp h

/-- What follows an item or a member, up to the bracket. -/
theorem Items.tokens_next (items : Items) :
    Flow.itemsTokens false items.flows = .flowEntry :: Flow.itemsTokens true items.flows := by
  cases items <;> simp [flows, Flow.itemsTokens]

theorem Members.tokens_next (members : Members) :
    Flow.membersTokens false members.flows =
      .flowEntry :: Flow.membersTokens true members.flows := by
  cases members <;> simp [flows, Flow.membersTokens]

section
open Scanner

/-- A key is scanned up to the value behind its colon. -/
theorem Key.scanned {k : Key} (hk : Check.yaml.label k = true) {more : List Char} {s : Scanner}
    (h : Before (k.chars ++ more) s) (hflow : s.flow ≠ 0) (hallows : s.allowsKey = true) :
    ∃ t, Passes s [.key, .scalar (Glyph.points k.glyphs) false, .value] t ∧ Before more t ∧
      t.flow = s.flow := by
  simp only [Check.label, Bool.and_eq_true] at hk
  obtain ⟨⟨⟨⟨hbefore, hstring⟩, -⟩, hbetween⟩, hkey⟩ := hk
  simp only [Check.yaml, Bool.and_eq_true, decide_eq_true_eq, List.all_eq_true] at hkey
  have hlabel : Before (Glyph.quoted k.glyphs ++ (k.behind.val ++ ':' :: (k.between.val ++ more)))
      s := by
    refine Before.of_gap ?_ (Gap.isGapChar_of_yaml hbefore)
    simpa [Key.chars, Key.label, List.append_assoc] using h
  obtain ⟨t, hpasses, hmore, ht⟩ := hlabel.key (Glyph.isInline_of_yaml hstring) hkey.1 hkey.2
    hflow hallows
  exact ⟨t, hpasses, hmore.of_gap (Gap.isGapChar_of_yaml hbetween), ht⟩

/-- How a value is scanned in front of a gap and what ends it. -/
def Scanned (v : Value) : Prop :=
  ∀ (s : Scanner) (gap more : List Char), Before (v.chars ++ (gap ++ more)) s →
    (∀ c ∈ gap, isGapChar c = true) → endsValue (s.flow != 0) (more.headD '\x00') = true →
    ∃ t, Passes s v.flow.tokens t ∧ Before more t ∧ t.flow = s.flow

/-- How an item or a member is scanned, in front of a comma or a bracket. -/
def PartScanned (part : List Char) (tokens : List Token) : Prop :=
  ∀ (s : Scanner) (a : Char) (more : List Char), Before (part ++ a :: more) s → s.flow ≠ 0 →
    s.allowsKey = true → endsValue true a = true →
    ∃ t, Passes s tokens t ∧ Before (a :: more) t ∧ t.flow = s.flow

/-- How what is between brackets is scanned, with the closing one. -/
def InsideScanned (b : Bracket) (inside : List Char) (tokens : List Token) : Prop :=
  ∀ (s : Scanner) (more : List Char), Before (inside ++ b.closing :: more) s → s.flow ≠ 0 →
    s.allowsKey = true → ∃ t, Passes s tokens t ∧ Before more t ∧ t.flow = s.flow - 1

theorem PartScanned.item {v : Value} (hv : Scanned v) {before after : Gap}
    (hbefore : Check.yaml.gap before = true) (hafter : Check.yaml.gap after = true) :
    PartScanned (before.val ++ v.chars ++ after.val) v.flow.tokens := by
  intro s a more h hflow _ ha
  rw [List.append_assoc, List.append_assoc] at h
  refine hv _ _ _ (h.of_gap (Gap.isGapChar_of_yaml hbefore)) (Gap.isGapChar_of_yaml hafter) ?_
  rw [show (s.flow != 0) = true by simpa using hflow]
  exact ha

theorem PartScanned.member {k : Key} {v : Value} (hk : Check.yaml.label k = true) (hv : Scanned v)
    {after : Gap} (hafter : Check.yaml.gap after = true) :
    PartScanned (k.chars ++ v.chars ++ after.val)
      (.key :: .scalar (Glyph.points k.glyphs) false :: .value :: v.flow.tokens) := by
  intro s a more h hflow hallows ha
  rw [List.append_assoc, List.append_assoc] at h
  obtain ⟨t, hkey, hvalue, ht⟩ := k.scanned hk h hflow hallows
  have hend : endsValue (t.flow != 0) a = true := by
    rw [show (t.flow != 0) = true by rw [ht]; simpa using hflow]
    exact ha
  obtain ⟨u, hpasses, hmore, hu⟩ := hv _ _ _ hvalue (Gap.isGapChar_of_yaml hafter) hend
  exact ⟨u, hkey.trans hpasses, hmore, hu.trans ht⟩

theorem PartScanned.last {b : Bracket} {part : List Char} {tokens : List Token}
    (h : PartScanned part tokens) : InsideScanned b part (tokens ++ [b.stop]) := by
  intro s more hbefore hflow hallows
  obtain ⟨t, hpart, hclose, ht⟩ := h _ _ _ hbefore hflow hallows (by cases b <;> rfl)
  obtain ⟨u, hstop, hmore, hu⟩ := hclose.close b (by rw [ht]; exact hflow)
  exact ⟨u, hpart.trans hstop, hmore, by rw [hu, ht]⟩

theorem PartScanned.next {b : Bracket} {part inside : List Char} {tokens tokens' : List Token}
    (h : PartScanned part tokens) (h' : InsideScanned b inside tokens') :
    InsideScanned b (part ++ ',' :: inside) (tokens ++ .flowEntry :: tokens') := by
  intro s more hbefore hflow hallows
  rw [List.append_assoc] at hbefore
  obtain ⟨t, hpart, hcomma, ht⟩ := h _ _ _ hbefore hflow hallows rfl
  obtain ⟨u, hentry, hinside, hu, hkey⟩ := hcomma.entry
  obtain ⟨w, hrest, hmore, hw⟩ := h' _ _ hinside (by rw [hu, ht]; exact hflow) hkey
  exact ⟨w, hpart.trans (hentry.trans hrest), hmore, by rw [hw, hu, ht]⟩

theorem InsideScanned.empty {b : Bracket} {gap : Gap} (h : Check.yaml.gap gap = true) :
    InsideScanned b gap.val [b.stop] := by
  intro s more hbefore hflow _
  exact (hbefore.of_gap (Gap.isGapChar_of_yaml h)).close b hflow

/-- A collection is scanned together with its brackets. -/
theorem InsideScanned.enclosed {b : Bracket} {inside : List Char} {tokens : List Token}
    (h : InsideScanned b inside tokens) {v : Value}
    (hchars : v.chars = b.opening :: inside ++ [b.closing])
    (htokens : v.flow.tokens = b.start :: tokens) : Scanned v := by
  intro s gap more hbefore hgap _
  rw [hchars, List.cons_append, List.cons_append, List.append_assoc] at hbefore
  obtain ⟨t, hopen, hinside, ht, hallows⟩ := hbefore.open b
  obtain ⟨u, hrest, hmore, hu⟩ := h _ (gap ++ more) hinside
    (by rw [ht]; exact Nat.succ_ne_zero _) hallows
  refine ⟨u, ?_, hmore.of_gap hgap, by rw [hu, ht]; rfl⟩
  rw [htokens]
  exact hopen.trans hrest

mutual

/-- A value is scanned into its tokens, with the gap behind it. -/
theorem Value.scanned : ∀ v : Value, v.passes Check.yaml = true → Scanned v
  | .word w, _ => fun _ _ _ h hgap hend => h.plain w.isChunk.1 w.isChunk.2 hgap hend
  | .number n, _ => fun _ _ _ h hgap hend => h.plain n.beginsChunk_chars
      (fun c hc => isChunkChar_of_isNumberChar (n.isNumberChar_chars c hc)) hgap hend
  | .string _, hp => fun _ _ _ h hgap _ => by
    obtain ⟨t, hpasses, hmore, ht⟩ := h.string (Glyph.isInline_of_yaml hp)
    exact ⟨t, hpasses, hmore.of_gap hgap, ht⟩
  | .emptyArray _, hp => InsideScanned.enclosed (b := .list) (.empty hp) rfl rfl
  | .array items, hp => (items.scanned hp).enclosed rfl rfl
  | .emptyObject _, hp => InsideScanned.enclosed (b := .map) (.empty hp) rfl rfl
  | .object members, hp => (members.scanned hp).enclosed rfl rfl

theorem Items.scanned : ∀ items : Items, items.passes Check.yaml = true →
    InsideScanned .list items.chars (Flow.itemsTokens true items.flows)
  | .last before item after, hp => by
    simp only [Items.passes, Bool.and_eq_true] at hp
    exact (PartScanned.item (item.scanned hp.1.2) hp.1.1 hp.2).last
  | .next before item after more, hp => by
    simp only [Items.passes, Bool.and_eq_true] at hp
    obtain ⟨⟨⟨hbefore, hitem⟩, hafter⟩, hmore⟩ := hp
    rw [Items.flows, Flow.itemsTokens, more.tokens_next]
    exact (PartScanned.item (item.scanned hitem) hbefore hafter).next (more.scanned hmore)

theorem Members.scanned : ∀ members : Members, members.passes Check.yaml = true →
    InsideScanned .map members.chars (Flow.membersTokens true members.flows)
  | .last key value after, hp => by
    simp only [Members.passes, Bool.and_eq_true] at hp
    exact (PartScanned.member hp.1.1 (value.scanned hp.1.2) hp.2).last
  | .next key value after more, hp => by
    simp only [Members.passes, Bool.and_eq_true] at hp
    obtain ⟨⟨⟨hkey, hvalue⟩, hafter⟩, hmore⟩ := hp
    rw [Members.flows, Flow.membersTokens, more.tokens_next]
    exact (PartScanned.member hkey (value.scanned hvalue) hafter).next (more.scanned hmore)

end
end

theorem isPrintable_of_isGapChar {c : Char} (h : isGapChar c = true) : isPrintable c = true := by
  simp only [isGapChar, Bool.or_eq_true, beq_iff_eq] at h
  rcases h with (rfl | rfl) | rfl <;> rfl

theorem Gap.printable {gap : Gap} (h : Check.yaml.gap gap = true) :
    ∀ c ∈ gap.val, isPrintable c = true :=
  fun c hc => isPrintable_of_isGapChar (Gap.isGapChar_of_yaml h c hc)

theorem Glyph.printable {glyphs : List Glyph} (h : Check.yaml.string glyphs = true) :
    ∀ c ∈ quoted glyphs, Yaml.isPrintable c = true := by
  simp only [quoted, List.mem_append, List.mem_cons, List.mem_flatMap, List.not_mem_nil, or_false]
  rintro c ((rfl | ⟨g, hg, hc⟩) | rfl)
  · rfl
  · rcases mem_chars hc with ⟨hraw, rfl⟩ | hvisible
    · have hboth := List.all_eq_true.mp h _ hg
      rw [Bool.and_eq_true] at hboth
      exact hboth.2
    · exact isPrintable_of_isVisible hvisible
  · rfl

theorem Key.printable {k : Key} (h : Check.yaml.label k = true) :
    ∀ c ∈ k.chars, isPrintable c = true := by
  simp only [Check.label, Bool.and_eq_true] at h
  obtain ⟨⟨⟨⟨hbefore, hstring⟩, hbehind⟩, hbetween⟩, -⟩ := h
  simp only [Key.chars, Key.label, List.forall_mem_append, List.forall_mem_cons]
  exact ⟨⟨Gap.printable hbefore, Glyph.printable hstring, Gap.printable hbehind⟩, rfl,
    Gap.printable hbetween⟩

theorem printable_enclosed (b : Scanner.Bracket) {inside : List Char}
    (h : ∀ c ∈ inside, isPrintable c = true) :
    ∀ c ∈ b.opening :: inside ++ [b.closing], isPrintable c = true := by
  simp only [List.forall_mem_append, List.forall_mem_cons]
  cases b <;> exact ⟨⟨rfl, h⟩, rfl, List.forall_mem_nil _⟩

mutual

theorem Value.printable :
    ∀ v : Value, v.passes Check.yaml = true → ∀ c ∈ v.chars, isPrintable c = true
  | .word w, _ => List.all_eq_true.mp (by cases w <;> rfl)
  | .number n, _ => fun c hc =>
      isPrintable_of_isVisible (isVisible_of_isNumberChar (n.isNumberChar_chars c hc))
  | .string _, h => Glyph.printable h
  | .emptyArray _, h => printable_enclosed .list (Gap.printable h)
  | .array items, h => printable_enclosed .list (items.printable h)
  | .emptyObject _, h => printable_enclosed .map (Gap.printable h)
  | .object members, h => printable_enclosed .map (members.printable h)

theorem Items.printable :
    ∀ items : Items, items.passes Check.yaml = true → ∀ c ∈ items.chars, isPrintable c = true
  | .last before item after, h => by
    simp only [Items.passes, Bool.and_eq_true] at h
    simp only [Items.chars, List.forall_mem_append]
    exact ⟨⟨Gap.printable h.1.1, item.printable h.1.2⟩, Gap.printable h.2⟩
  | .next before item after more, h => by
    simp only [Items.passes, Bool.and_eq_true] at h
    simp only [Items.chars, List.forall_mem_append, List.forall_mem_cons]
    exact ⟨⟨⟨Gap.printable h.1.1.1, item.printable h.1.1.2⟩, Gap.printable h.1.2⟩, rfl,
      more.printable h.2⟩

theorem Members.printable :
    ∀ members : Members, members.passes Check.yaml = true →
      ∀ c ∈ members.chars, isPrintable c = true
  | .last key value after, h => by
    simp only [Members.passes, Bool.and_eq_true] at h
    simp only [Members.chars, List.forall_mem_append]
    exact ⟨⟨Key.printable h.1.1, value.printable h.1.2⟩, Gap.printable h.2⟩
  | .next key value after more, h => by
    simp only [Members.passes, Bool.and_eq_true] at h
    simp only [Members.chars, List.forall_mem_append, List.forall_mem_cons]
    exact ⟨⟨⟨Key.printable h.1.1.1, value.printable h.1.1.2⟩, Gap.printable h.1.2⟩, rfl,
      more.printable h.2⟩

end

/-- A text is scanned into the tokens of its value. -/
theorem Written.tokens_eq (w : Written) (h : w.passes Check.yaml = true) :
    Tokens.ofText (Text.ofChars w.chars) = ⟨w.value.flow.tokens ++ [.streamEnd], none⟩ := by
  simp only [Written.passes, Bool.and_eq_true] at h
  obtain ⟨⟨hbefore, hvalue⟩, hafter⟩ := h
  have hprintable : ∀ c ∈ w.chars, isPrintable c = true := by
    simp only [Written.chars, List.forall_mem_append]
    exact ⟨⟨Gap.printable hbefore, w.value.printable hvalue⟩, Gap.printable hafter⟩
  have hstart : Scanner.Before (w.value.chars ++ (w.after.val ++ [])) (Scanner.ofText w.chars) := by
    refine Scanner.Before.of_gap ?_ (Gap.isGapChar_of_yaml hbefore)
    simpa [Written.chars] using Scanner.before_ofText w.chars
  obtain ⟨t, hpasses, hend, -⟩ := w.value.scanned hvalue _ _ _ hstart
    (Gap.isGapChar_of_yaml hafter) rfl
  exact Tokens.ofText_eq hprintable hpasses hend

end ApiScaffold.Json
