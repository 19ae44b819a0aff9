import ApiScaffold.Json.Reader

namespace ApiScaffold.Json

/-- White space between two tokens. -/
abbrev Gap := {s : List Char // ∀ c ∈ s, isSpace c = true}

inductive Word where
  | null
  | yes
  | no
  deriving DecidableEq, Repr

namespace Word

def chars : Word → List Char
  | null => "null".toList
  | yes => "true".toList
  | no => "false".toList

def value : Word → Tree
  | null => .null
  | yes => .bool true
  | no => .bool false

end Word

/-- The characters of ASCII that leave a mark. -/
def isVisible (c : Char) : Bool :=
  0x21 ≤ c.toNat && c.toNat ≤ 0x7e

/-- Whether two halves stand for one character together. -/
def isPair : CodePoint → CodePoint → Bool
  | .surrogate high, .surrogate low => high.val < 0x400 && 0x400 ≤ low.val
  | _, _ => false

theorem putPoint_of_not_isPair {p : CodePoint} {t : Text} (h : ∀ q ∈ t.head?, isPair p q = false) :
    putPoint p t = p :: t := by
  unfold putPoint
  split
  · rename_i high low rest
    have hpair := h (.surrogate low) rfl
    simp only [isPair, Bool.and_eq_false_iff, decide_eq_false_iff_not] at hpair
    rw [if_neg (by omega)]
  · rfl

/-- The characters that stand for themselves in a string. -/
def isRaw (c : Char) : Bool :=
  0x20 ≤ c.toNat && c != '"' && c != '\\'

/-- A code point of a string, as it is spelled. -/
inductive Glyph where
  | raw (c : Char) (h : isRaw c = true)
  | escape (letter e : Char) (h : escaped? letter = some e)
  | code (a b c d : Char) (n : Nat) (h : hex4? a b c d = some n)

namespace Glyph

def chars : Glyph → List Char
  | raw c _ => [c]
  | escape letter _ _ => ['\\', letter]
  | code a b c d _ _ => ['\\', 'u', a, b, c, d]

def point : Glyph → CodePoint
  | raw c _ => c
  | escape _ e _ => e
  | code _ _ _ _ n _ => .ofNat n

/-- The code points that are spelled, one for each glyph. -/
def points (glyphs : List Glyph) : Text :=
  glyphs.map point

/-- The text that is spelled, where two halves of a pair are one character. -/
def text (glyphs : List Glyph) : Text :=
  glyphs.foldr (fun g t => putPoint g.point t) []

/-- Whether no glyph is the first half of a pair with the one behind it. -/
def areApart : List Glyph → Bool
  | g :: g' :: rest => !isPair g.point g'.point && areApart (g' :: rest)
  | _ => true

theorem text_eq_points {glyphs : List Glyph} (h : areApart glyphs = true) :
    text glyphs = points glyphs := by
  induction glyphs with
  | nil => rfl
  | cons g rest ih =>
    cases rest with
    | nil => exact putPoint_of_not_isPair (by simp)
    | cons g' rest =>
      simp only [areApart, Bool.and_eq_true, Bool.not_eq_true'] at h
      have hrest := ih h.2
      rw [text, List.foldr_cons, show List.foldr _ [] (g' :: rest) = text (g' :: rest) from rfl,
        hrest, putPoint_of_not_isPair (by simpa [points] using h.1)]
      rfl

/-- A string between its quotes. -/
def quoted (glyphs : List Glyph) : List Char :=
  '"' :: glyphs.flatMap chars ++ ['"']

theorem isVisible_of_hexValue? {c : Char} {n : Nat} (h : hexValue? c = some n) :
    isVisible c = true := by
  have hle (a b : Char) : a ≤ b ↔ a.toNat ≤ b.toNat := Iff.rfl
  simp only [isVisible, Bool.and_eq_true, decide_eq_true_eq]
  simp only [hexValue?, hle, Char.reduceToNat] at h
  split at h
  · omega
  · split at h
    · omega
    · split at h
      · omega
      · cases h

/-- The characters of a glyph are visible unless they stand for themselves. -/
theorem mem_chars {g : Glyph} {c : Char} (hc : c ∈ g.chars) :
    (∃ h, g = raw c h) ∨ isVisible c = true := by
  cases g with
  | raw d h =>
    obtain rfl : c = d := by simpa [chars] using hc
    exact .inl ⟨h, rfl⟩
  | escape letter e h =>
    right
    simp only [chars, List.mem_cons, List.not_mem_nil, or_false] at hc
    rcases hc with rfl | rfl
    · rfl
    · unfold escaped? at h
      split at h <;> first | rfl | cases h
  | code a b d e n h =>
    right
    simp only [hex4?, Option.bind_eq_bind, Option.bind_eq_some_iff] at h
    obtain ⟨_, ha, _, hb, _, hd, _, he, _⟩ := h
    simp only [chars, List.mem_cons, List.not_mem_nil, or_false] at hc
    rcases hc with rfl | rfl | rfl | rfl | rfl | rfl
    · rfl
    · rfl
    · exact isVisible_of_hexValue? ha
    · exact isVisible_of_hexValue? hb
    · exact isVisible_of_hexValue? hd
    · exact isVisible_of_hexValue? he

end Glyph

theorem forall_isDigit_of_isWhole {s : List Char} (h : isWhole s = true) :
    s ≠ [] ∧ ∀ c ∈ s, c.isDigit = true := by
  unfold isWhole at h
  split at h
  · simp
  · cases h
  · cases h
  · rename_i hne
    exact ⟨hne, by simpa using h⟩

theorem isVisible_of_isDigit {c : Char} (h : c.isDigit = true) : isVisible c = true := by
  have hrange : 48 ≤ c.toNat ∧ c.toNat ≤ 57 := Char.isDigit_iff_toNat.mp h
  simp only [isVisible, Bool.and_eq_true, decide_eq_true_eq]
  omega

theorem isVisible_of_isNumberChar {c : Char} (h : isNumberChar c = true) : isVisible c = true := by
  simp only [isNumberChar, Bool.or_eq_true, beq_iff_eq] at h
  rcases h with ((((hdigit | rfl) | rfl) | rfl) | rfl) | rfl
  · exact isVisible_of_isDigit hdigit
  all_goals rfl

def digitsValue (digits : List Char) : Nat :=
  Numeral.ofDigits (digits.map fun c => c.toNat - 48)

/-- The exponent of a number. A sign tells whether it is negative. -/
structure Exponent where
  capital : Bool
  sign : Option Bool
  digits : List Char
  nonempty : digits ≠ []
  areDigits : ∀ c ∈ digits, c.isDigit = true

namespace Exponent

def signChars : Option Bool → List Char
  | none => []
  | some negative => [if negative then '-' else '+']

def chars (e : Exponent) : List Char :=
  (if e.capital then 'E' else 'e') :: signChars e.sign ++ e.digits

def power (e : Exponent) : Int :=
  if e.sign = some true then -(digitsValue e.digits : Int) else digitsValue e.digits

end Exponent

/-- A number. One without digits behind the point has no point. -/
structure Number where
  negative : Bool
  whole : List Char
  fraction : List Char
  exponent : Option Exponent
  isWhole : isWhole whole = true
  areDigits : ∀ c ∈ fraction, c.isDigit = true

namespace Number

def fractionChars (n : Number) : List Char :=
  if n.fraction = [] then [] else '.' :: n.fraction

def exponentChars (n : Number) : List Char :=
  (n.exponent.map Exponent.chars).getD []

/-- The number without its sign. -/
def size (n : Number) : List Char :=
  n.whole ++ n.fractionChars ++ n.exponentChars

def chars (n : Number) : List Char :=
  (if n.negative then ['-'] else []) ++ n.size

def isInteger (n : Number) : Bool :=
  n.fraction.isEmpty && n.exponent.isNone

def integer (n : Number) : Int :=
  if n.negative then -(digitsValue n.whole : Int) else digitsValue n.whole

def float (n : Number) : Binary64 :=
  .ofDecimal n.negative (digitsValue (n.whole ++ n.fraction))
    ((n.exponent.map Exponent.power).getD 0 - n.fraction.length)

/-- An exponent begins with its mark. -/
theorem exponentChars_cases (n : Number) : (n.exponent = none ∧ n.exponentChars = []) ∨
    (n.exponent ≠ none ∧
      ∃ mark rest, n.exponentChars = mark :: rest ∧ (mark = 'e' ∨ mark = 'E')) := by
  cases he : n.exponent with
  | none => exact .inl ⟨rfl, by simp [exponentChars, he]⟩
  | some e =>
    refine .inr ⟨by simp, if e.capital then 'E' else 'e',
      Exponent.signChars e.sign ++ e.digits, ?_, ?_⟩
    · simp [exponentChars, he, Exponent.chars]
    · cases e.capital <;> simp

theorem headD_exponentChars (n : Number) : n.exponentChars.headD '\x00' ∈ ['\x00', 'e', 'E'] := by
  rcases n.exponentChars_cases with ⟨-, h⟩ | ⟨-, mark, rest, h, rfl | rfl⟩ <;> simp [h]

/-- What may stand behind the digits in front of the point. -/
theorem headD_behind (n : Number) :
    (n.fractionChars ++ n.exponentChars).headD '\x00' ∈ ['\x00', '.', 'e', 'E'] := by
  by_cases hf : n.fraction = []
  · rw [fractionChars, if_pos hf, List.nil_append]
    exact (by simp : ∀ c ∈ ['\x00', 'e', 'E'], c ∈ ['\x00', '.', 'e', 'E']) _
      n.headD_exponentChars
  · simp [fractionChars, hf]

/-- The digits in front of the point are all that stand there. -/
theorem isDigit_headD_behind (n : Number) :
    ((n.fractionChars ++ n.exponentChars).headD '\x00').isDigit = false :=
  (by simp : ∀ c ∈ ['\x00', '.', 'e', 'E'], c.isDigit = false) _ n.headD_behind

theorem isNumberChar_exponentChars (n : Number) : ∀ c ∈ n.exponentChars, isNumberChar c = true := by
  intro c hc
  cases he : n.exponent with
  | none => simp [exponentChars, he] at hc
  | some e =>
    have hdigit : ∀ c ∈ e.digits, isNumberChar c = true := fun c hc => by
      simp [isNumberChar, e.areDigits c hc]
    have hsign : ∀ c ∈ Exponent.signChars e.sign, isNumberChar c = true := by
      cases e.sign with
      | none => simp [Exponent.signChars]
      | some negative => cases negative <;> simp [Exponent.signChars, isNumberChar]
    simp only [exponentChars, he, Option.map_some, Option.getD_some, Exponent.chars,
      List.cons_append, List.mem_cons, List.mem_append] at hc
    rcases hc with rfl | hc | hc
    · cases e.capital <;> rfl
    · exact hsign c hc
    · exact hdigit c hc

theorem isNumberChar_chars (n : Number) : ∀ c ∈ n.chars, isNumberChar c = true := by
  have hdigit {c : Char} (h : c.isDigit = true) : isNumberChar c = true := by
    simp [isNumberChar, h]
  intro c hc
  simp only [chars, size, fractionChars, List.mem_append] at hc
  rcases hc with hc | (hc | hc) | hc
  · split at hc
    · obtain rfl : c = '-' := by simpa using hc
      rfl
    · cases hc
  · exact hdigit ((forall_isDigit_of_isWhole n.isWhole).2 c hc)
  · split at hc
    · cases hc
    · rcases List.mem_cons.mp hc with rfl | hc
      · rfl
      · exact hdigit (n.areDigits c hc)
  · exact n.isNumberChar_exponentChars c hc

theorem isVisible_size (n : Number) : ∀ c ∈ n.size, isVisible c = true :=
  fun c hc => isVisible_of_isNumberChar (n.isNumberChar_chars c (List.mem_append_right _ hc))

/-- A number without its sign begins with a digit. -/
theorem size_eq_cons (n : Number) : ∃ d rest, n.size = d :: rest ∧ d.isDigit = true := by
  obtain ⟨hne, hdigits⟩ := forall_isDigit_of_isWhole n.isWhole
  obtain ⟨d, rest, hwhole⟩ := List.exists_cons_of_ne_nil hne
  refine ⟨d, rest ++ n.fractionChars ++ n.exponentChars, ?_,
    hdigits d (by rw [hwhole]; exact List.mem_cons_self)⟩
  rw [size, hwhole]
  rfl

/-- Numbers begin with a digit or a minus. -/
theorem chars_eq_cons (n : Number) :
    ∃ c rest, n.chars = c :: rest ∧ ∀ a : Char, a.isDigit = false ∧ a ≠ '-' → c ≠ a := by
  obtain ⟨d, rest, hsize, hd⟩ := n.size_eq_cons
  cases hn : n.negative with
  | false =>
    refine ⟨d, rest, by simp [chars, hn, hsize], ?_⟩
    rintro a ⟨ha, -⟩ rfl
    rw [hd] at ha
    cases ha
  | true => exact ⟨'-', n.size, by simp [chars, hn], fun a ha heq => ha.2 heq.symm⟩

/-- Behind the digits of a number that is no integer is a point or an exponent. -/
theorem size_cases (n : Number) : (n.isInteger = true ∧ n.size = n.whole) ∨
    (n.isInteger = false ∧ ∃ mark rest, n.size = n.whole ++ mark :: rest ∧
      (mark = '.' ∨ mark = 'e' ∨ mark = 'E')) := by
  by_cases hf : n.fraction = []
  · have hsize : n.size = n.whole ++ n.exponentChars := by simp [size, fractionChars, hf]
    rcases n.exponentChars_cases with ⟨hnone, hchars⟩ | ⟨hsome, mark, rest, hchars, hmark⟩
    · exact .inl ⟨by simp [isInteger, hf, hnone], by simp [hsize, hchars]⟩
    · exact .inr ⟨by simp [isInteger, Option.isSome_iff_ne_none, hsome], mark, rest,
        by rw [hsize, hchars], .inr hmark⟩
  · exact .inr ⟨by simp [isInteger, hf], '.', n.fraction ++ n.exponentChars,
      by simp [size, fractionChars, hf], .inl rfl⟩

/-- A number without point and exponent is an integer, any other is rounded. -/
def value (n : Number) : Tree :=
  if n.isInteger then .int n.integer else .float n.float

end Number

/-- The key of a member, up to where its value begins. -/
structure Key where
  before : Gap
  glyphs : List Glyph
  behind : Gap
  between : Gap

/-- A key from its quote up to its colon. -/
def Key.label (k : Key) : List Char :=
  Glyph.quoted k.glyphs ++ k.behind.val

def Key.chars (k : Key) : List Char :=
  k.before.val ++ k.label ++ ':' :: k.between.val

mutual

inductive Value where
  | word (w : Word)
  | number (n : Number)
  | string (glyphs : List Glyph)
  | emptyArray (gap : Gap)
  | array (items : Items)
  | emptyObject (gap : Gap)
  | object (members : Members)

/-- The items of an array, at least one. -/
inductive Items where
  | last (before : Gap) (item : Value) (after : Gap)
  | next (before : Gap) (item : Value) (after : Gap) (more : Items)

/-- The members of an object, at least one. -/
inductive Members where
  | last (key : Key) (value : Value) (after : Gap)
  | next (key : Key) (value : Value) (after : Gap) (more : Members)

end

mutual

def Value.chars : Value → List Char
  | .word w => w.chars
  | .number n => n.chars
  | .string glyphs => Glyph.quoted glyphs
  | .emptyArray gap => '[' :: gap.val ++ [']']
  | .array items => '[' :: items.chars ++ [']']
  | .emptyObject gap => '{' :: gap.val ++ ['}']
  | .object members => '{' :: members.chars ++ ['}']

def Items.chars : Items → List Char
  | .last before item after => before.val ++ item.chars ++ after.val
  | .next before item after more => before.val ++ item.chars ++ after.val ++ ',' :: more.chars

def Members.chars : Members → List Char
  | .last key value after => key.chars ++ value.chars ++ after.val
  | .next key value after more => key.chars ++ value.chars ++ after.val ++ ',' :: more.chars

end

/-- What numbers and strings stand for. -/
structure Sense where
  number : Number → Tree
  string : List Glyph → Text

/-- What they stand for in JSON. -/
def Sense.plain : Sense :=
  ⟨Number.value, Glyph.text⟩

mutual

/-- The tree that a value denotes. A repeated key keeps its first place and its last value. -/
def Value.tree (s : Sense) : Value → Tree
  | .word w => w.value
  | .number n => s.number n
  | .string glyphs => .str (s.string glyphs)
  | .emptyArray _ => .list []
  | .array items => .list (items.trees s)
  | .emptyObject _ => .map []
  | .object members => Tree.ofEntries (members.entries s)

def Items.trees (s : Sense) : Items → List Tree
  | .last _ item _ => [item.tree s]
  | .next _ item _ more => item.tree s :: more.trees s

def Members.entries (s : Sense) : Members → Tree.Entries
  | .last key value _ => [(.str (s.string key.glyphs), value.tree s)]
  | .next key value _ more => (.str (s.string key.glyphs), value.tree s) :: more.entries s

end

/-- A test of each part of a text. -/
structure Check where
  gap : Gap → Bool
  number : Number → Bool
  string : List Glyph → Bool
  key : Key → Bool

def Check.label (c : Check) (k : Key) : Bool :=
  c.gap k.before && c.string k.glyphs && c.gap k.behind && c.gap k.between && c.key k

mutual

/-- Whether every part of a value passes. -/
def Value.passes (c : Check) : Value → Bool
  | .word _ => true
  | .number n => c.number n
  | .string glyphs => c.string glyphs
  | .emptyArray gap => c.gap gap
  | .array items => items.passes c
  | .emptyObject gap => c.gap gap
  | .object members => members.passes c

def Items.passes (c : Check) : Items → Bool
  | .last before item after => c.gap before && item.passes c && c.gap after
  | .next before item after more =>
    c.gap before && item.passes c && c.gap after && more.passes c

def Members.passes (c : Check) : Members → Bool
  | .last key value after => c.label key && value.passes c && c.gap after
  | .next key value after more =>
    c.label key && value.passes c && c.gap after && more.passes c

end

/-- A JSON text: a value between white space. -/
structure Written where
  before : Gap
  value : Value
  after : Gap

namespace Written

def chars (w : Written) : List Char :=
  w.before.val ++ w.value.chars ++ w.after.val

def tree (s : Sense) (w : Written) : Tree :=
  w.value.tree s

def passes (c : Check) (w : Written) : Bool :=
  c.gap w.before && w.value.passes c && c.gap w.after

end Written

/-- Senses agree on the numbers and strings that pass. -/
structure Sense.Agree (c : Check) (s s' : Sense) : Prop where
  number : ∀ n, c.number n = true → s.number n = s'.number n
  string : ∀ glyphs, c.string glyphs = true → s.string glyphs = s'.string glyphs

mutual

theorem Value.tree_congr {c : Check} {s s' : Sense} (hs : Sense.Agree c s s') :
    ∀ v : Value, v.passes c = true → v.tree s = v.tree s'
  | .word _, _ => rfl
  | .number n, h => hs.number n h
  | .string glyphs, h => congrArg Tree.str (hs.string glyphs h)
  | .emptyArray _, _ => rfl
  | .array items, h => congrArg Tree.list (items.trees_congr hs h)
  | .emptyObject _, _ => rfl
  | .object members, h => congrArg Tree.ofEntries (members.entries_congr hs h)

theorem Items.trees_congr {c : Check} {s s' : Sense} (hs : Sense.Agree c s s') :
    ∀ items : Items, items.passes c = true → items.trees s = items.trees s'
  | .last _ item _, h => by
    simp only [Items.passes, Bool.and_eq_true] at h
    simp only [Items.trees, item.tree_congr hs h.1.2]
  | .next _ item _ more, h => by
    simp only [Items.passes, Bool.and_eq_true] at h
    simp only [Items.trees, item.tree_congr hs h.1.1.2, more.trees_congr hs h.2]

theorem Members.entries_congr {c : Check} {s s' : Sense} (hs : Sense.Agree c s s') :
    ∀ members : Members, members.passes c = true → members.entries s = members.entries s'
  | .last key value _, h => by
    simp only [Members.passes, Check.label, Bool.and_eq_true] at h
    obtain ⟨⟨⟨⟨⟨⟨-, hkey⟩, -⟩, -⟩, -⟩, hvalue⟩, -⟩ := h
    simp only [Members.entries, hs.string _ hkey, value.tree_congr hs hvalue]
  | .next key value _ more, h => by
    simp only [Members.passes, Check.label, Bool.and_eq_true] at h
    obtain ⟨⟨⟨⟨⟨⟨⟨-, hkey⟩, -⟩, -⟩, -⟩, hvalue⟩, -⟩, hmore⟩ := h
    simp only [Members.entries, hs.string _ hkey, value.tree_congr hs hvalue,
      more.entries_congr hs hmore]

end

end ApiScaffold.Json
