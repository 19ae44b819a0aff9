import ApiScaffold.Proofs.Json.Grammar
import ApiScaffold.Proofs.Yaml.Spelled

namespace ApiScaffold

namespace Json.Glyph

/-- Whether a glyph is read in YAML as it stands: all but raw line breaks are. -/
def isInline : Glyph → Bool
  | raw c _ => !Yaml.isBreak c
  | _ => true

def isSpace : Glyph → Bool
  | raw c _ => c == ' '
  | _ => false

theorem chars_ne_nil (g : Glyph) : g.chars ≠ [] := by
  cases g <;> simp [chars]

end Json.Glyph

namespace Yaml
open Json Spots

variable {i l bound : Nat} {more : List Char} {s rest : Spots} {text : Text}

theorem not_isBreak_of_isVisible {c : Char} (h : isVisible c = true) : isBreak c = false := by
  rw [Bool.eq_false_iff]
  intro hbreak
  simp only [isBreak, Bool.or_eq_true, beq_iff_eq] at hbreak
  rcases hbreak with (((rfl | rfl) | rfl) | rfl) | rfl <;> cases h

theorem isPrintable_of_isVisible {c : Char} (h : isVisible c = true) : isPrintable c = true := by
  simp only [isVisible, Bool.and_eq_true, decide_eq_true_eq] at h
  have hrange : 0x20 ≤ c.toNat ∧ c.toNat ≤ 0x7e := by omega
  simp [isPrintable, hrange]

/-- What is read at once of a double-quoted scalar, in front of its closing quote. -/
def quotedPiece (bound : Nat) (s : Spots) : Except Fault (Text × Spots) :=
  if isGapOrTab (peek s) then
    (quotedSpaces bound s).map fun (spaces, rest) => (Text.ofChars spaces, rest)
  else if peek s = '\\' then readEscape bound (s.drop 1)
  else .ok ([.char (peek s)], s.drop 1)

theorem quotedFrom_eq (hquote : peek s ≠ '"') (hpiece : quotedPiece bound s = .ok (text, rest))
    {whole : Text} {left : Spots} {fuel : Nat}
    (hrest : quotedFrom bound true fuel rest = .ok (whole, left)) :
    quotedFrom bound true (fuel + 1) s = .ok (text ++ whole, left) := by
  have hbind : quotedFrom bound true (fuel + 1) s = quotedPiece bound s >>= fun r =>
      quotedFrom bound true fuel r.2 >>= fun r' => .ok (r.1 ++ r'.1, r'.2) := by
    simp only [quotedFrom, quotedPiece, if_true, if_neg hquote, Bool.true_and, beq_iff_eq]
    by_cases hgap : isGapOrTab (peek s) = true
    · rw [if_pos hgap, if_pos hgap]
    · by_cases hescape : peek s = '\\'
      · rw [if_neg hgap, if_neg hgap, if_pos hescape, if_pos hescape]
      · rw [if_neg hgap, if_neg hgap, if_neg hescape, if_neg hescape]
  rw [hbind, hpiece]
  show (quotedFrom bound true fuel rest >>= _) = _
  rw [hrest]
  rfl

namespace Spells

theorem quotedFrom_end (h : Spells i l ('"' :: more) s) (fuel : Nat) :
    quotedFrom bound true (fuel + 1) s = .ok ([], s.drop 1) := by
  cases h
  rfl

theorem quotedPiece_raw {c : Char} (h : Spells i l (c :: more) s) (hgap : isGapOrTab c = false)
    (hslash : c ≠ '\\') : quotedPiece bound s = .ok ([.char c], s.drop 1) := by
  have hpeek : peek s = c := h.peek_eq
  rw [quotedPiece, hpeek, hgap, if_neg (by simp), if_neg hslash]

/-- A letter that JSON escapes has the same meaning here. -/
theorem simpleEscape?_eq {letter e : Char} (h : escaped? letter = some e) :
    simpleEscape? letter = some e := by
  unfold escaped? at h
  split at h <;> cases h <;> rfl

theorem quotedPiece_escape {letter e : Char} (h : Spells i l ('\\' :: letter :: more) s)
    (he : escaped? letter = some e) : quotedPiece bound s = .ok ([.char e], s.drop 2) := by
  cases h with
  | cons _ next =>
    cases next
    simp [quotedPiece, readEscape, peek, isGapOrTab, isGap, isBreakOrEnd, isBreak, isEnd,
      simpleEscape?_eq he]

theorem hexValue?_lt {c : Char} {n : Nat} (h : Yaml.hexValue? c = some n) : n < 16 := by
  simp only [Yaml.hexValue?, Char.le_def, UInt32.le_iff_toNat_le, Char.toNat] at h
  split at h
  · rename_i hc
    have hle : c.val.toNat ≤ 57 := hc.2
    cases h
    omega
  · split at h
    · rename_i hc
      have hle : c.val.toNat ≤ 102 := hc.2
      cases h
      omega
    · split at h
      · rename_i hc
        have hle : c.val.toNat ≤ 70 := hc.2
        cases h
        omega
      · cases h

/-- Four hexadecimal digits are read as their number. -/
theorem quotedPiece_code {a b c d : Char} {n : Nat}
    (h : Spells i l ('\\' :: 'u' :: a :: b :: c :: d :: more) s) (hn : hex4? a b c d = some n) :
    quotedPiece bound s = .ok ([.ofNat n], s.drop 6) := by
  obtain ⟨x, hx, y, hy, z, hz, w, hw, rfl⟩ : ∃ x, Yaml.hexValue? a = some x ∧
      ∃ y, Yaml.hexValue? b = some y ∧ ∃ z, Yaml.hexValue? c = some z ∧
      ∃ w, Yaml.hexValue? d = some w ∧ ((x * 16 + y) * 16 + z) * 16 + w = n := by
    simpa [hex4?, Option.bind_eq_some_iff, show Json.hexValue? = Yaml.hexValue? from rfl] using hn
  have hx' := hexValue?_lt hx
  have hy' := hexValue?_lt hy
  have hz' := hexValue?_lt hz
  have hw' := hexValue?_lt hw
  have hpeek : peek s = '\\' := h.peek_eq
  cases h with
  | @cons _ _ _ _ _ _ s _ h =>
    have hletter : peek s = 'u' := h.peek_eq
    have hcode : readCode? s = some (((x * 16 + y) * 16 + z) * 16 + w, s.drop 5) := by
      cases h with
      | cons _ h => cases h with
        | cons _ h => cases h with
          | cons _ h => cases h with
            | cons _ h => cases h with
              | cons _ h =>
                simp [readCode?, peek, escapeWidth?, readHex?, hx, hy, hz, hw]
    rw [quotedPiece, hpeek, if_neg (by decide), if_pos rfl, readEscape, List.drop_one,
      List.tail_cons, hletter, readCoded, hcode]
    simp only [simpleEscape?]
    rw [if_neg (by decide), if_neg (by omega)]
    rfl

/-- A run of spaces that no break follows is read as it stands. -/
theorem quotedPiece_spaces {n : Nat} (h : Spells i l (List.replicate (n + 1) ' ' ++ more) s)
    (hspace : isTabOrSpace (more.headD '\x00') = false)
    (hbreak : isBreakOrEnd (more.headD '\x00') = false) :
    quotedPiece bound s =
      .ok (Text.ofChars (List.replicate (n + 1) ' '), s.drop (n + 1)) := by
  have hpeek : peek s = ' ' := h.peek_eq
  have hrest : peek (s.drop (n + 1)) = more.headD '\x00' := by
    have := h.peekAt_eq
    rwa [List.length_replicate] at this
  simp only [isBreakOrEnd, Bool.or_eq_false_iff] at hbreak
  have hspan := h.spanChars_eq (p := isTabOrSpace) (by simp [isTabOrSpace]) hspace
  rw [List.length_replicate] at hspan
  rw [quotedPiece, hpeek, if_pos (by decide), quotedSpaces, hspan]
  simp only [hrest, hbreak]
  rfl

/-- A character that stands for itself is no gap unless it is a space or a break. -/
theorem isGapOrTab_of_isRaw {c : Char} (h : isRaw c = true) (hspace : c ≠ ' ')
    (hbreak : isBreak c = false) : isGapOrTab c = false := by
  simp only [isRaw, Bool.and_eq_true, decide_eq_true_eq] at h
  have htab : c ≠ '\t' := by
    rintro rfl
    exact absurd h.1.1 (by decide)
  have hend : c ≠ '\x00' := by
    rintro rfl
    exact absurd h.1.1 (by decide)
  simp [isGapOrTab, isGap, isBreakOrEnd, isEnd, htab, hspace, hbreak, hend]

/-- The first character of a glyph that is no space goes on with a scalar. -/
theorem head_glyph {g : Glyph} (hinline : g.isInline = true) (hspace : g.isSpace = false)
    (more : List Char) :
    (g.chars ++ more).headD '\x00' ≠ '"' ∧ isGapOrTab ((g.chars ++ more).headD '\x00') = false := by
  cases g with
  | raw c h =>
    have hraw := h
    simp only [isRaw, Bool.and_eq_true, bne_iff_ne, ne_eq] at hraw
    have hc : c ≠ ' ' := by simpa [Glyph.isSpace] using hspace
    have hbreak : isBreak c = false := by simpa [Glyph.isInline] using hinline
    exact ⟨hraw.1.2, isGapOrTab_of_isRaw h hc hbreak⟩
  | escape letter e h => exact ⟨by simp [Glyph.chars], rfl⟩
  | code a b c d n h => exact ⟨by simp [Glyph.chars], rfl⟩

/-- A glyph that is no space is read as its code point. -/
theorem quotedPiece_glyph {g : Glyph} (h : Spells i l (g.chars ++ more) s)
    (hinline : g.isInline = true) (hspace : g.isSpace = false) :
    quotedPiece bound s = .ok ([g.point], s.drop g.chars.length) := by
  have hgap := (head_glyph hinline hspace more).2
  cases g with
  | raw c hc =>
    simp only [isRaw, Bool.and_eq_true, bne_iff_ne, ne_eq] at hc
    exact h.quotedPiece_raw hgap hc.2
  | escape letter e he => exact h.quotedPiece_escape he
  | code a b c d n hn => exact h.quotedPiece_code hn

/-- The spaces at the front of a string, and the glyphs from the first other one on. -/
theorem glyphs_cases (glyphs : List Glyph) :
    ∃ n rest, glyphs.flatMap Glyph.chars = List.replicate n ' ' ++ rest.flatMap Glyph.chars ∧
      Glyph.points glyphs = Text.ofChars (List.replicate n ' ') ++ Glyph.points rest ∧
      (∀ g ∈ rest, g ∈ glyphs) ∧ ∀ g more, rest = g :: more → g.isSpace = false := by
  induction glyphs with
  | nil => exact ⟨0, [], rfl, rfl, by simp, by simp⟩
  | cons g glyphs ih =>
    cases hg : g.isSpace with
    | false =>
      exact ⟨0, g :: glyphs, rfl, rfl, fun _ h => h, fun g' more h => by cases h; exact hg⟩
    | true =>
      obtain ⟨n, rest, hchars, hpoints, hmem, hhead⟩ := ih
      cases g with
      | raw c hc =>
        obtain rfl : c = ' ' := by simpa [Glyph.isSpace] using hg
        refine ⟨n + 1, rest, ?_, ?_, fun g h => List.mem_cons_of_mem _ (hmem g h), hhead⟩
        · rw [List.flatMap_cons, hchars]
          rfl
        · rw [Glyph.points, List.map_cons, ← Glyph.points, hpoints]
          rfl
      | escape letter e he => cases hg
      | code a b c d m hm => cases hg

/-- A string without raw breaks is read as one code point for each glyph. -/
theorem quotedFrom_glyphs {glyphs : List Glyph} {fuel : Nat}
    (h : Spells i l (glyphs.flatMap Glyph.chars ++ '"' :: more) s) (bound : Nat)
    (hinline : ∀ g ∈ glyphs, g.isInline = true) (hf : (glyphs.flatMap Glyph.chars).length < fuel) :
    quotedFrom bound true fuel s =
      .ok (Glyph.points glyphs, s.drop ((glyphs.flatMap Glyph.chars).length + 1)) := by
  induction fuel generalizing i l glyphs s with
  | zero => omega
  | succ fuel ih =>
    obtain ⟨n, rest, hchars, hpoints, hmem, hhead⟩ := glyphs_cases glyphs
    replace hinline : ∀ g ∈ rest, g.isInline = true := fun g hg => hinline g (hmem g hg)
    rw [hchars, List.append_assoc] at h
    rw [hchars] at hf ⊢
    rw [hpoints]
    cases n with
    | zero =>
      cases rest with
      | nil => exact h.quotedFrom_end fuel
      | cons g rest =>
        obtain ⟨hg, hrest⟩ := List.forall_mem_cons.mp hinline
        rw [List.replicate_zero, List.nil_append, List.flatMap_cons] at h hf ⊢
        rw [List.append_assoc] at h
        obtain ⟨l', hnext, -⟩ := h.drop
        have hspace := hhead g rest rfl
        have hpeek : peek s ≠ '"' := by
          rw [h.peek_eq]
          exact (head_glyph hg hspace _).1
        have hpos := List.length_pos_iff.mpr g.chars_ne_nil
        rw [List.length_append] at hf ⊢
        rw [quotedFrom_eq hpeek (h.quotedPiece_glyph hg hspace) (ih hnext hrest (by omega)),
          List.drop_drop, ← Nat.add_assoc]
        rfl
    | succ n =>
      have hstop : isTabOrSpace ((rest.flatMap Glyph.chars ++ '"' :: more).headD '\x00') = false ∧
          isBreakOrEnd ((rest.flatMap Glyph.chars ++ '"' :: more).headD '\x00') = false := by
        cases rest with
        | nil => exact ⟨rfl, rfl⟩
        | cons g rest =>
          have hgap := (head_glyph (hinline g List.mem_cons_self) (hhead g rest rfl)
            (rest.flatMap Glyph.chars ++ '"' :: more)).2
          rw [List.flatMap_cons, List.append_assoc]
          simp only [isGapOrTab, isGap, Bool.or_eq_false_iff] at hgap
          simp only [isTabOrSpace, Bool.or_eq_false_iff]
          exact ⟨⟨hgap.2.1, hgap.1⟩, hgap.2.2⟩
      obtain ⟨l', hnext, -⟩ := h.drop
      have hpeek : peek s ≠ '"' := by
        rw [h.peek_eq, List.replicate_succ]
        simp
      rw [List.length_replicate] at hnext
      rw [List.length_append, List.length_replicate] at hf ⊢
      rw [quotedFrom_eq hpeek (h.quotedPiece_spaces hstop.1 hstop.2) (ih hnext hinline (by omega)),
        List.drop_drop, ← Nat.add_assoc]

end Spells
end Yaml
end ApiScaffold
