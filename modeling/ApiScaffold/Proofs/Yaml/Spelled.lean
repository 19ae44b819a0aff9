import ApiScaffold.Yaml.Token.Plain
import ApiScaffold.Yaml.Token.Stream

namespace ApiScaffold.Yaml

/-- The spots of a text that starts at an index and on a line. -/
inductive Spells : Nat → Nat → List Char → Spots → Prop where
  | nil (i l column : Nat) : Spells i l [] [⟨'\x00', i, l, column⟩]
  | cons {i l l' column : Nat} {a : Char} {text : List Char} {s : Spots}
    (line : isBreak a = false → l' = l) (next : Spells (i + 1) l' text s) :
    Spells i l (a :: text) (⟨a, i, l, column⟩ :: s)

theorem spells_spotsFrom (i l column : Nat) (text : List Char) :
    Spells i l text (spotsFrom i l column text) := by
  induction text generalizing i l column with
  | nil => exact .nil i l column
  | cons a text ih =>
    rw [spotsFrom]
    split
    · rename_i hends
      refine .cons (fun hbreak => ?_) (ih _ _ _)
      simp only [hbreak, Bool.false_and, Bool.false_or, Bool.and_eq_true, beq_iff_eq] at hends
      rw [hends.1] at hbreak
      cases hbreak
    · exact .cons (fun _ => rfl) (ih _ _ _)

namespace Spells
open Spots

variable {i l : Nat} {a : Char} {text first more : List Char} {s : Spots}

theorem peek_eq (h : Spells i l text s) : peek s = text.headD '\x00' := by
  cases h <;> rfl

theorem index_eq (h : Spells i l text s) : index s = i := by
  cases h <;> rfl

theorem line_eq (h : Spells i l text s) : line s = l := by
  cases h <;> rfl

theorem length_eq (h : Spells i l text s) : s.length = text.length + 1 := by
  induction h with
  | nil => rfl
  | cons _ _ ih => rw [List.length_cons, ih, List.length_cons]

/-- What is left behind the first part of a text; the line is the same if no break is in it. -/
theorem drop (h : Spells i l (first ++ more) s) :
    ∃ l', Spells (i + first.length) l' more (s.drop first.length) ∧
      ((∀ c ∈ first, isBreak c = false) → l' = l) := by
  induction first generalizing i l s with
  | nil => exact ⟨l, h, fun _ => rfl⟩
  | cons a first ih =>
    cases h with
    | cons line next =>
      obtain ⟨l', hdrop, hline⟩ := ih next
      refine ⟨l', ?_, fun hbreak => ?_⟩
      · rw [List.length_cons, show i + (first.length + 1) = i + 1 + first.length by omega]
        exact hdrop
      · obtain ⟨ha, hfirst⟩ := List.forall_mem_cons.mp hbreak
        rw [hline hfirst, line ha]

theorem peekAt_eq (h : Spells i l (first ++ more) s) :
    peekAt first.length s = more.headD '\x00' := by
  obtain ⟨l', hdrop, -⟩ := h.drop
  rw [peekAt, hdrop.peek_eq]

theorem spanChars_eq {p : Char → Bool} (h : Spells i l (first ++ more) s)
    (hfirst : ∀ c ∈ first, p c = true) (hmore : p (more.headD '\x00') = false) :
    spanChars p s = (first, s.drop first.length) := by
  induction first generalizing i l s with
  | nil =>
    cases h with
    | nil => simp [spanChars, show p '\x00' = false from hmore]
    | @cons _ _ _ _ a _ _ _ _ => simp [spanChars, show p a = false from hmore]
  | cons a first ih =>
    cases h with
    | cons line next =>
      obtain ⟨ha, hfirst⟩ := List.forall_mem_cons.mp hfirst
      have hrest := ih next hfirst
      simp only [spanChars, Prod.mk.injEq] at hrest
      simp [spanChars, ha, hrest.1, hrest.2]

theorem skipChars_eq {p : Char → Bool} (h : Spells i l (first ++ more) s)
    (hfirst : ∀ c ∈ first, p c = true) (hmore : p (more.headD '\x00') = false) :
    skipChars p s = s.drop first.length :=
  congrArg Prod.snd (h.spanChars_eq hfirst hmore)

end Spells

/-- The characters of a gap between two tokens, with its line breaks but no tabs. -/
def isGapChar (c : Char) : Bool :=
  c == ' ' || c == '\n' || c == '\r'

/-- Whether a gap ends in front of a character, with neither a comment nor a document mark. -/
def endsGap (c : Char) : Bool :=
  c != ' ' && !isBreak c && c != '#' && c != '\ufeff'

namespace Spells
open Spots

variable {i l : Nat} {b : Char} {gap text : List Char} {s : Spots}

theorem isBreak_eq_false (hend : endsGap (text.headD '\x00') = true) :
    isBreak (text.headD '\x00') = false := by
  simp only [endsGap, Bool.and_eq_true, Bool.not_eq_true'] at hend
  exact hend.1.1.2

/-- A line break of a gap has one character or two. -/
theorem lineBreak_eq (h : Spells i l (b :: gap ++ text) s) (hb : b = '\n' ∨ b = '\r')
    (hend : endsGap (text.headD '\x00') = true) :
    ∃ first rest, b :: gap = first ++ rest ∧ first ≠ [] ∧
      lineBreak s = (['\n'], s.drop first.length) := by
  cases h with
  | @cons _ _ _ column _ _ s line next =>
    by_cases htwo : b = '\r' ∧ peek s = '\n'
    · rw [next.peek_eq] at htwo
      cases gap with
      | nil =>
        have hbreak := isBreak_eq_false hend
        rw [show text.headD '\x00' = '\n' from htwo.2] at hbreak
        cases hbreak
      | cons d gap =>
        refine ⟨[b, d], gap, rfl, by simp, ?_⟩
        rw [lineBreak, if_pos (by rw [next.peek_eq]; exact htwo)]
        rfl
    · refine ⟨[b], gap, rfl, by simp, ?_⟩
      rw [lineBreak, if_neg htwo, if_pos (hb.imp_right .inl)]
      rfl

theorem skipComment_eq (h : peek s ≠ '#') : skipComment s = s :=
  if_neg h

/-- A gap is spaces up to its first break. -/
theorem gap_cases (hgap : ∀ c ∈ gap, isGapChar c = true) :
    ∃ spaces rest, gap = spaces ++ rest ∧ (∀ c ∈ spaces, (c == ' ') = true) ∧
      (rest = [] ∨ ∃ b breaks, rest = b :: breaks ∧ (b = '\n' ∨ b = '\r')) := by
  induction gap with
  | nil => exact ⟨[], [], rfl, by simp, .inl rfl⟩
  | cons c gap ih =>
    obtain ⟨hc, htail⟩ := List.forall_mem_cons.mp hgap
    simp only [isGapChar, Bool.or_eq_true, beq_iff_eq] at hc
    rcases hc with (rfl | hc) | hc
    · obtain ⟨spaces, rest, rfl, hspaces, hrest⟩ := ih htail
      exact ⟨' ' :: spaces, rest, rfl, List.forall_mem_cons.mpr ⟨rfl, hspaces⟩, hrest⟩
    · exact ⟨[], c :: gap, rfl, by simp, .inr ⟨c, gap, rfl, .inl hc⟩⟩
    · exact ⟨[], c :: gap, rfl, by simp, .inr ⟨c, gap, rfl, .inr hc⟩⟩

/-- A gap is passed over up to its end. Between brackets it allows no key. -/
theorem gapFrom_eq (h : Spells i l (gap ++ text) s) (hgap : ∀ c ∈ gap, isGapChar c = true)
    (hend : endsGap (text.headD '\x00') = true) (flow allows : Bool) {fuel : Nat}
    (hf : gap.length < fuel) :
    ∃ allows', Scanner.gapFrom flow allows fuel s = (allows', s.drop gap.length) ∧
      (flow = true → allows' = allows) := by
  induction fuel generalizing i l gap s allows with
  | zero => omega
  | succ fuel ih =>
    obtain ⟨spaces, rest, rfl, hspaces, hrest⟩ := gap_cases hgap
    rw [List.append_assoc] at h
    obtain ⟨l', hdrop, -⟩ := h.drop
    rw [Scanner.gapFrom]
    rcases hrest with rfl | ⟨b, breaks, rfl, hb⟩
    · have hpeek : peek (s.drop spaces.length) = text.headD '\x00' := hdrop.peek_eq
      have hbreak := isBreak_eq_false hend
      simp only [endsGap, Bool.and_eq_true, bne_iff_ne, ne_eq] at hend
      rw [h.skipChars_eq hspaces (by simpa using hend.1.1.1),
        skipComment_eq (by rw [hpeek]; exact hend.1.2), hpeek, hbreak, List.append_nil]
      exact ⟨allows, rfl, fun _ => rfl⟩
    · have hpeek : peek (s.drop spaces.length) = b := hdrop.peek_eq
      have hskip : (b == ' ') = false ∧ b ≠ '#' ∧ isBreak b = true := by
        rcases hb with rfl | rfl <;> decide
      obtain ⟨first, rest, hfirst, hne, hline⟩ := hdrop.lineBreak_eq hb hend
      have hpos := List.length_pos_iff.mpr hne
      rw [hfirst] at hdrop hgap hf ⊢
      rw [List.append_assoc] at hdrop
      obtain ⟨l'', hnext, -⟩ := hdrop.drop
      obtain ⟨allows', hgapFrom, hallows⟩ := ih hnext
        (fun c hc => hgap c (by simp [hc])) (allows || !flow) (by simp at hf; omega)
      rw [h.skipChars_eq hspaces hskip.1, skipComment_eq (by rw [hpeek]; exact hskip.2.1), hpeek,
        hskip.2.2, hline]
      refine ⟨allows', ?_, fun hflow => ?_⟩
      · simp only [if_true]
        rw [hgapFrom]
        simp only [List.drop_drop, List.length_append, Nat.add_assoc]
      · rw [hallows hflow, hflow, Bool.not_true, Bool.or_false]

end Spells

/-- The characters that never end a plain scalar. -/
def isChunkChar (c : Char) : Bool :=
  !isGapOrTab c && c != ':' && c != '?' && c != '#' && !isFlowIndicator c

/-- What may follow a value, in a flow collection or at the end of a text. -/
def endsValue (flow : Bool) (c : Char) : Bool :=
  c == '\x00' || (flow && (c == ',' || c == ']' || c == '}'))

theorem endsGap_of_endsValue {flow : Bool} {c : Char} (h : endsValue flow c = true) :
    endsGap c = true := by
  simp only [endsValue, Bool.or_eq_true, Bool.and_eq_true, beq_iff_eq] at h
  rcases h with rfl | ⟨-, (rfl | rfl) | rfl⟩ <;> decide

theorem endsPlain_of_endsValue {flow : Bool} {c : Char} (h : endsValue flow c = true)
    (next : Char) : endsPlain flow c next = true := by
  simp only [endsValue, Bool.or_eq_true, Bool.and_eq_true, beq_iff_eq] at h
  rcases h with rfl | ⟨rfl, (rfl | rfl) | rfl⟩ <;> rfl

namespace Spells
open Spots

variable {i l : Nat} {flow : Bool} {chunk gap text : List Char} {s : Spots}

theorem plainChunk_eq (h : Spells i l (chunk ++ text) s)
    (hchunk : ∀ c ∈ chunk, isChunkChar c = true)
    (htext : ∀ next, endsPlain flow (text.headD '\x00') next = true) :
    plainChunk flow s = (chunk, s.drop chunk.length) := by
  induction chunk generalizing i l s with
  | nil =>
    cases h with
    | nil => simp [plainChunk, show endsPlain flow '\x00' _ = true from htext _]
    | @cons _ _ _ _ a _ _ _ _ => simp [plainChunk, show endsPlain flow a _ = true from htext _]
  | cons a chunk ih =>
    cases h with
    | @cons _ _ _ _ _ _ s line next =>
      obtain ⟨ha, hchunk⟩ := List.forall_mem_cons.mp hchunk
      have hgo : endsPlain flow a (peek s) = false := by
        simp only [isChunkChar, Bool.and_eq_true, Bool.not_eq_true', bne_iff_ne, ne_eq] at ha
        obtain ⟨⟨⟨⟨hgap, hcolon⟩, hquestion⟩, -⟩, hindicator⟩ := ha
        simp [endsPlain, hgap, hcolon, hquestion, hindicator]
      rw [plainChunk, hgo, ih next hchunk]
      rfl

/-- No document mark stands where a gap goes on or a value ends. -/
theorem isDocumentMark_eq_false (h : Spells i l (gap ++ text) s)
    (hgap : ∀ c ∈ gap, isGapChar c = true) (hend : endsValue flow (text.headD '\x00') = true) :
    isDocumentMark s = false := by
  have hpeek : peek s ≠ '-' ∧ peek s ≠ '.' := by
    rw [h.peek_eq]
    cases gap with
    | nil =>
      constructor <;> intro hc <;> rw [show text.headD '\x00' = _ from hc] at hend <;>
        revert hend <;> cases flow <;> decide
    | cons c gap =>
      have hc := hgap c List.mem_cons_self
      constructor <;> rintro rfl <;> cases hc
  simp [isDocumentMark, isMark, hpeek]

theorem plainBreaks_eq (h : Spells i l (gap ++ text) s) (hgap : ∀ c ∈ gap, isGapChar c = true)
    (hend : endsValue flow (text.headD '\x00') = true) :
    ∃ breaks, plainBreaks s = (breaks, false, s.drop gap.length) := by
  induction gap generalizing i l s with
  | nil =>
    have hends := endsGap_of_endsValue hend
    have hbreak := isBreak_eq_false hends
    simp only [endsGap, Bool.and_eq_true, bne_iff_ne, ne_eq] at hends
    cases h with
    | nil => exact ⟨[], by simp [plainBreaks, isBreak]⟩
    | @cons _ _ _ _ a _ _ line next =>
      have ha : isBreak a = false := hbreak
      have hr : a ≠ '\r' := by
        rintro rfl
        cases ha
      exact ⟨[], by simp [plainBreaks, ha, hr, show a ≠ ' ' from hends.1.1.1]⟩
  | cons c gap ih =>
    obtain ⟨hc, hgap⟩ := List.forall_mem_cons.mp hgap
    cases h with
    | @cons _ _ _ column _ _ s line next =>
      obtain ⟨breaks, hbreaks⟩ := ih next hgap
      have hmark := next.isDocumentMark_eq_false hgap hend
      rw [plainBreaks]
      split
      · exact ⟨breaks, hbreaks⟩
      · rename_i hskip
        have hbreak : isBreak c = true := by
          simp only [isGapChar, Bool.or_eq_true, beq_iff_eq] at hc
          rcases hc with (rfl | rfl) | rfl
          · exact absurd (.inl rfl) hskip
          · rfl
          · rfl
        rw [if_pos hbreak, hmark, hbreaks]
        exact ⟨plainBreak c :: breaks, rfl⟩

/-- The gap behind a chunk is read, whatever it separates. -/
theorem plainSpaces_eq (h : Spells i l (gap ++ text) s) (hgap : ∀ c ∈ gap, isGapChar c = true)
    (hend : endsValue flow (text.headD '\x00') = true) :
    ∃ spaces broken, plainSpaces s = (spaces, broken, s.drop gap.length) := by
  have hends := endsGap_of_endsValue hend
  obtain ⟨spaces, rest, rfl, hspaces, hrest⟩ := gap_cases hgap
  rw [List.append_assoc] at h
  obtain ⟨l', hdrop, -⟩ := h.drop
  rw [plainSpaces]
  rcases hrest with rfl | ⟨b, breaks, rfl, hb⟩
  · have hpeek : peek (s.drop spaces.length) = text.headD '\x00' := hdrop.peek_eq
    have hbreak := isBreak_eq_false hends
    simp only [endsGap, Bool.and_eq_true, bne_iff_ne, ne_eq] at hends
    rw [h.spanChars_eq hspaces (by simpa using hends.1.1.1), List.append_nil]
    simp only [hpeek, hbreak]
    exact ⟨spaces, false, rfl⟩
  · have hpeek : peek (s.drop spaces.length) = b := hdrop.peek_eq
    have hskip : (b == ' ') = false ∧ isBreak b = true := by
      rcases hb with rfl | rfl <;> decide
    obtain ⟨first, rest, hfirst, -, hline⟩ := hdrop.lineBreak_eq hb hends
    rw [hfirst] at hdrop hgap ⊢
    rw [List.append_assoc] at hdrop
    obtain ⟨l'', hnext, -⟩ := hdrop.drop
    have hrest : ∀ c ∈ rest, isGapChar c = true := fun c hc => hgap c (by simp [hc])
    obtain ⟨more, hmore⟩ := hnext.plainBreaks_eq hrest hend
    rw [h.spanChars_eq hspaces hskip.1]
    simp only [hpeek, hskip.2, if_true, hline, hnext.isDocumentMark_eq_false hrest hend, hmore]
    exact ⟨foldBreaks ['\n'] more, true, by simp [List.drop_drop, Nat.add_assoc]⟩

/-- A chunk and the gap behind it are read as the scalar that it spells. -/
theorem readPlain_eq (h : Spells i l (chunk ++ (gap ++ text)) s) (hne : chunk ≠ [])
    (hchunk : ∀ c ∈ chunk, isChunkChar c = true) (hgap : ∀ c ∈ gap, isGapChar c = true)
    (hend : endsValue flow (text.headD '\x00') = true) {bound : Nat} (hbound : 0 < bound)
    (indent : Int) :
    ∃ broken, readPlain bound flow indent s =
      (Text.ofChars chunk, broken, s.drop (chunk ++ gap).length) := by
  obtain ⟨fuel, rfl⟩ := Nat.exists_eq_add_of_le' hbound
  obtain ⟨l', hdrop, -⟩ := h.drop
  obtain ⟨spaces, broken, hspaces⟩ := hdrop.plainSpaces_eq hgap hend
  obtain ⟨l'', hnext, -⟩ := hdrop.drop
  have hpeek : peek s ≠ '#' := by
    rw [h.peek_eq]
    obtain ⟨a, chunk, rfl⟩ := List.exists_cons_of_ne_nil hne
    intro (ha : a = '#')
    subst ha
    cases hchunk '#' List.mem_cons_self
  have hbehind (next : Char) : endsPlain flow ((gap ++ text).headD '\x00') next = true := by
    cases gap with
    | nil => exact endsPlain_of_endsValue hend next
    | cons c gap =>
      have hc := hgap c List.mem_cons_self
      simp only [isGapChar, Bool.or_eq_true, beq_iff_eq] at hc
      rcases hc with (rfl | rfl) | rfl <;> rfl
  have hplain := h.plainChunk_eq hchunk hbehind
  have hlast (fuel : Nat) (between : List Char) :
      plainFrom flow indent fuel between broken ((s.drop chunk.length).drop gap.length) =
        ([], broken, (s.drop chunk.length).drop gap.length) := by
    cases fuel with
    | zero => rfl
    | succ fuel =>
      have hnone : plainChunk flow _ = ([], _) :=
        plainChunk_eq (show Spells _ _ ([] ++ text) _ from hnext) (List.forall_mem_nil _)
          (endsPlain_of_endsValue hend)
      rw [plainFrom, hnone]
      simp
  refine ⟨broken, ?_⟩
  rw [readPlain, plainFrom, if_neg hpeek, hplain]
  simp only [hspaces, hlast, List.isEmpty_eq_false_iff.mpr hne, Bool.false_eq_true, if_false]
  split <;> simp [List.drop_drop]

end Spells
end ApiScaffold.Yaml
