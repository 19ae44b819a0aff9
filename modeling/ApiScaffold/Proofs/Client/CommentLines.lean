import ApiScaffold.Proofs.Client.Comments
import Mathlib.Data.List.Infix
import Mathlib.Data.List.TakeWhile

namespace ApiScaffold
open Text

namespace Text
variable {p : CodePoint} {s t line : Text} {lines : List Text}

section Breaking

/-- A text with every end of a comment in it broken up. -/
def breakEnds (t : Text) : Text :=
  replacePair (.char '*') (.char '/') "*\\/" t

/-- Whether a code point and the text behind it begin with the end of a comment. -/
def OpensEnd (p : CodePoint) (t : Text) : Prop :=
  p = .char '*' ∧ t.head? = some (.char '/')

theorem breakEnds_end (t : Text) :
    breakEnds (.char '*' :: .char '/' :: t) =
      .char '*' :: .char '\\' :: .char '/' :: breakEnds t := by
  rw [breakEnds, replacePair, if_pos ⟨rfl, rfl⟩]
  rfl

theorem breakEnds_cons (h : ¬ OpensEnd p t) : breakEnds (p :: t) = p :: breakEnds t := by
  cases t with
  | nil => rfl
  | cons q t =>
    rw [breakEnds, replacePair, if_neg (by simpa [OpensEnd] using h)]
    rfl

theorem head?_breakEnds (t : Text) : (breakEnds t).head? = t.head? :=
  head?_replacePair_cons

theorem breakEnds_eq_nil : breakEnds t = [] ↔ t = [] := by
  rw [← List.head?_eq_none_iff, head?_breakEnds, List.head?_eq_none_iff]

/-- A text begins with the end of a comment or with a code point that opens none. -/
theorem breakEnds_cases {motive : Text → Prop} (t : Text) (nil : motive [])
    (ending : ∀ t, motive t → motive (.char '*' :: .char '/' :: t))
    (cons : ∀ p t, ¬ OpensEnd p t → motive t → motive (p :: t)) : motive t := by
  induction t using replacePair.induct (CodePoint.char '*') (CodePoint.char '/') with
  | case1 x y rest h ih =>
    obtain ⟨rfl, rfl⟩ := h
    exact ending rest ih
  | case2 x y rest h ih => exact cons x _ (by simpa [OpensEnd] using h) ih
  | case3 x => exact cons x [] (by simp [OpensEnd]) nil
  | case4 => exact nil

end Breaking

section Lines

/-- Puts a code point in front of the first line. -/
def extendFirst (p : CodePoint) : List Text → List Text
  | [] => [[p]]
  | line :: more => (p :: line) :: more

theorem splitLines_cons_of_unbroken (h : p.is isLineBreak = false) (t : Text) :
    splitLines (p :: t) = extendFirst p (splitLines t) := by
  rw [splitLines, if_neg (by simp [h])]
  · cases splitLines t <;> rfl
  · rintro rest rfl
    simp [CodePoint.is, isLineBreak] at h

theorem splitLines_cons_of_break (h : p.is isLineBreak = true)
    (hpair : ¬ (p = .char '\r' ∧ t.head? = some (.char '\n'))) :
    splitLines (p :: t) = [] :: splitLines t := by
  rw [splitLines, if_pos h]
  rintro rest rfl rfl
  exact hpair ⟨rfl, rfl⟩

/-- The first line begins as the text does, if it is not empty. -/
theorem head?_of_splitLines (h : splitLines t = line :: lines) :
    ∀ q ∈ line.head?, t.head? = some q := by
  obtain ⟨tail, rfl, -⟩ := exists_tail_of_splitLines h
  intro q hq
  cases line with
  | nil => cases hq
  | cons x line => exact hq

/-- No end of a comment goes across lines, so it is the same to break them up before or after. -/
theorem splitLines_breakEnds (t : Text) :
    splitLines (breakEnds t) = (splitLines t).map breakEnds := by
  induction t using breakEnds_cases with
  | nil => rfl
  | ending t ih =>
    have hsign (c : Char) (hc : isLineBreak c = false) (t : Text) :
        splitLines (.char c :: t) = extendFirst (.char c) (splitLines t) :=
      splitLines_cons_of_unbroken (p := .char c) hc t
    rw [breakEnds_end, hsign '*' rfl, hsign '\\' rfl, hsign '/' rfl, hsign '*' rfl,
      hsign '/' rfl, ih]
    cases splitLines t with
    | nil => rfl
    | cons line lines => simp only [List.map_cons, extendFirst, breakEnds_end]
  | cons p t hopens ih =>
    rw [breakEnds_cons hopens]
    cases hbreak : p.is isLineBreak with
    | false =>
      rw [splitLines_cons_of_unbroken hbreak, splitLines_cons_of_unbroken hbreak, ih]
      cases hlines : splitLines t with
      | nil => rfl
      | cons line lines =>
        have hline : ¬ OpensEnd p line := fun h => hopens ⟨h.1, head?_of_splitLines hlines _ h.2⟩
        simp only [List.map_cons, extendFirst, breakEnds_cons hline]
    | true =>
      by_cases hpair : p = .char '\r' ∧ t.head? = some (.char '\n')
      · obtain ⟨rfl, hfeed⟩ := hpair
        obtain ⟨rest, rfl⟩ := List.head?_eq_some_iff.mp hfeed
        -- The two characters break one line, so the rest of the text is what is left.
        have hfeeds (t : Text) : splitLines (.char '\n' :: t) = [] :: splitLines t :=
          splitLines_cons_of_break rfl (by simp)
        have hrest : breakEnds (.char '\n' :: rest) = .char '\n' :: breakEnds rest :=
          breakEnds_cons (by simp [OpensEnd])
        have hlines : splitLines (breakEnds rest) = (splitLines rest).map breakEnds := by
          rw [hrest, hfeeds, hfeeds, List.map_cons] at ih
          exact (List.cons.inj ih).2
        rw [hrest, splitLines, splitLines, hlines]
        rfl
      · have hkept : ¬ (p = .char '\r' ∧ (breakEnds t).head? = some (.char '\n')) := by
          rwa [head?_breakEnds]
        rw [splitLines_cons_of_break hbreak hkept, splitLines_cons_of_break hbreak hpair, ih]
        rfl

end Lines

section Blanks

theorem trimStart_breakEnds (t : Text) : trimStart (breakEnds t) = breakEnds (trimStart t) := by
  induction t using breakEnds_cases with
  | nil => rfl
  | ending t ih =>
    rw [breakEnds_end]
    exact (breakEnds_end t).symm
  | cons p t hopens ih =>
    cases hblank : isBlank p with
    | false => simp [trimStart, breakEnds_cons hopens, hblank]
    | true => simpa [trimStart, breakEnds_cons hopens, hblank] using ih

/-- What is left begins as the text does, if anything is left. -/
theorem head?_trimEnd (t : Text) : ∀ q ∈ (trimEnd t).head?, t.head? = some q := by
  obtain ⟨cut, -, hcut⟩ := dropLastWhile_append isBlank t
  intro q hq
  rw [hcut, List.head?_append, show (dropLastWhile isBlank t).head? = some q from hq]
  rfl

theorem trimEnd_cons (p : CodePoint) (t : Text) :
    trimEnd (p :: t) = if trimEnd t = [] ∧ isBlank p = true then [] else p :: trimEnd t := by
  rw [trimEnd, trimEnd, dropLastWhile]
  cases dropLastWhile isBlank t with
  | nil => simp
  | cons q kept => simp

theorem trimEnd_breakEnds (t : Text) : trimEnd (breakEnds t) = breakEnds (trimEnd t) := by
  induction t using breakEnds_cases with
  | nil => rfl
  | ending t ih =>
    have hsign (c : Char) (hc : isBlank (.char c) = false) (t : Text) :
        trimEnd (.char c :: t) = .char c :: trimEnd t := by
      simp [trimEnd_cons, hc]
    rw [breakEnds_end, hsign '*' rfl, hsign '\\' rfl, hsign '/' rfl, hsign '*' rfl, hsign '/' rfl,
      breakEnds_end, ih]
  | cons p t hopens ih =>
    have hkept : ¬ OpensEnd p (trimEnd t) := fun h => hopens ⟨h.1, head?_trimEnd t _ h.2⟩
    rw [breakEnds_cons hopens, trimEnd_cons, trimEnd_cons, ih]
    simp only [breakEnds_eq_nil]
    split
    · rfl
    · rw [breakEnds_cons hkept]

theorem trim_breakEnds (t : Text) : trim (breakEnds t) = breakEnds (trim t) := by
  rw [trim, trimStart_breakEnds, trimEnd_breakEnds]
  rfl

theorem trimEnd_eq_nil_iff (t : Text) : trimEnd t = [] ↔ ∀ p ∈ t, isBlank p = true := by
  induction t with
  | nil => simp [trimEnd, dropLastWhile]
  | cons p t ih => simp [trimEnd_cons, ← ih, and_comm]

theorem trim_eq_nil_iff (t : Text) : trim t = [] ↔ ∀ p ∈ t, isBlank p = true := by
  rw [trim, trimEnd_eq_nil_iff]
  constructor
  · intro h p hp
    rw [← List.takeWhile_append_dropWhile (p := isBlank) (l := t), List.mem_append] at hp
    exact hp.elim List.mem_takeWhile_imp (h p)
  · intro h p hp
    exact h p ((List.dropWhile_suffix isBlank).subset hp)

end Blanks
end Text

namespace Client
variable {s line : Text}

/-- The lines of a text that are not blank, without the blanks around them. -/
def plainLines (s : Text) : List Text :=
  ((splitLines s).map trim).filter fun line => !line.isEmpty

theorem commentBody_eq (s : Text) : commentBody s = (plainLines s).map breakEnds := by
  have hbody : commentBody s =
      ((splitLines (breakEnds s)).map trim).filter fun line => !line.isEmpty := rfl
  have hempty : ((fun line : Text => !line.isEmpty) ∘ breakEnds) = fun line => !line.isEmpty := by
    funext line
    cases line with
    | nil => rfl
    | cons p line =>
      have hne : breakEnds (p :: line) ≠ [] := by simp [breakEnds_eq_nil]
      simp [hne]
  have htrim : trim ∘ breakEnds = breakEnds ∘ trim := funext trim_breakEnds
  rw [hbody, splitLines_breakEnds, List.map_map, htrim, ← List.map_map, List.filter_map, hempty]
  rfl

theorem plainLines_eq_nil_iff (s : Text) :
    plainLines s = [] ↔ ∀ line ∈ splitLines s, ∀ p ∈ line, isBlank p = true := by
  simp [plainLines, List.filter_eq_nil_iff, trim_eq_nil_iff]

/-- The lines that a comment carries: what stands between its marks, or on each of its lines
between the first and the last behind a star. -/
def readComment : List Text → Option (List Text)
  | [] => some []
  | [line] => do
    let inner ← line.dropPrefix? "/** "
    let body ← cutEnd? " */" inner
    some [body]
  | first :: rest =>
    if first = "/**" ∧ rest.getLast? = some " */" then rest.dropLast.mapM (·.dropPrefix? " * ")
    else none

theorem mapM_dropPrefix? (opening : Text) (lines : List Text) :
    (lines.map (opening ++ ·)).mapM (·.dropPrefix? opening) = some lines := by
  induction lines with
  | nil => rfl
  | cons line lines ih =>
    rw [List.map_cons, List.mapM_cons, List.dropPrefix?_append_of_beq _ BEq.rfl, ih]
    rfl

theorem readComment_docComment (s : Text) : readComment (docComment s) = some (commentBody s) := by
  unfold docComment
  generalize commentBody s = lines
  rcases lines with _ | ⟨line, _ | ⟨next, more⟩⟩
  · rfl
  · have hend : cutEnd? (ofString " */") (line ++ ofString " */") = some line := by
      simp [cutEnd?]
    rw [readComment, List.append_assoc, List.dropPrefix?_append_of_beq _ BEq.rfl,
      Option.bind_eq_bind, Option.bind_some, hend]
    rfl
  · rw [readComment, if_pos ⟨rfl, List.getLast?_concat⟩, List.dropLast_concat, mapM_dropPrefix?]
    simp

theorem not_break_of_mem_docComment {c : CodePoint} (h : line ∈ docComment s) (hc : c ∈ line) :
    c.is isLineBreak = false := by
  have hbody : ∀ l ∈ commentBody s, ∀ c ∈ l, c.is isLineBreak = false := by
    intro l hl c hc
    obtain ⟨raw, hraw, rfl⟩ := List.mem_map.mp (List.mem_filter.mp hl).1
    exact not_break_of_mem_splitLines hraw ((isInfix_trim raw).subset hc)
  have hsign (mark : String) (hmark : ∀ c ∈ ofString mark, c.is isLineBreak = false) (l : Text)
      (hl : l ∈ commentBody s) : ∀ c ∈ ofString mark ++ l, c.is isLineBreak = false :=
    List.forall_mem_append.mpr ⟨hmark, hbody l hl⟩
  unfold docComment at h
  generalize commentBody s = lines at h hsign
  rcases lines with _ | ⟨first, _ | ⟨next, more⟩⟩
  · cases h
  · cases List.mem_singleton.mp h
    rcases List.mem_append.mp hc with hc | hc
    · exact hsign "/** " (by decide) first List.mem_cons_self c hc
    · exact (show ∀ c ∈ ofString " */", c.is isLineBreak = false by decide) c hc
  · simp only [List.mem_cons, List.mem_append, List.mem_map, List.not_mem_nil, or_false] at h
    rcases h with rfl | ⟨l, hl, rfl⟩ | rfl
    · exact (show ∀ c ∈ ofString "/**", c.is isLineBreak = false by decide) c hc
    · exact hsign " * " (by decide) l (by simpa using hl) c hc
    · exact (show ∀ c ∈ ofString " */", c.is isLineBreak = false by decide) c hc

/-- The end of a comment stands in it once, at its end. -/
theorem standsAt_commentEnd_iff {inner : Text} (h : Enclosed inner) (i : Nat) :
    StandsAt commentEnd ("/**" ++ (inner ++ commentEnd)) i ↔ i = 3 + inner.length := by
  have hopening (i : Nat) : ¬ StandsAt commentEnd "/**" i := by
    have hfree : ¬ commentEnd <:+: ofString "/**" := by decide
    exact fun hi => hfree (exists_standsAt_iff.mp ⟨i, hi⟩)
  have hinner (i : Nat) : ¬ StandsAt commentEnd inner i :=
    fun hi => h.free (exists_standsAt_iff.mp ⟨i, hi⟩)
  have hclosing (i : Nat) : StandsAt commentEnd commentEnd i ↔ i = 0 := by
    constructor
    · intro hi
      have hlong := List.IsPrefix.length_le hi
      rw [List.length_drop] at hlong
      have hlength : commentEnd.length = 2 := rfl
      omega
    · rintro rfl
      exact List.prefix_rfl
  obtain ⟨c, hc, hout⟩ := h.last
  have hseam : Seam commentEnd inner commentEnd := by
    refine seam_of_getLast fun x hx => ?_
    rw [hc] at hx
    cases hx
    exact hout
  rw [(h.seam_opening _ _).standsAt_append_iff (by decide), or_iff_right (hopening i)]
  simp only [hseam.standsAt_append_iff (show commentEnd ≠ [] by decide), hinner, false_or, hclosing]
  have hlength : (ofString "/**").length = 3 := rfl
  constructor
  · rintro ⟨j, rfl, k, rfl, rfl⟩
    omega
  · rintro rfl
    exact ⟨inner.length, by omega, 0, by omega, rfl⟩

/-- A comment of a text without lines to carry is none. Otherwise it is opened at its front, closed
at its end and nowhere else, none of its lines is broken, and it carries the lines of the text in
their order, with the ends of comments in them broken up. -/
theorem docComment_carries (s : Text) :
    (docComment s = [] ↔ ∀ line ∈ splitLines s, ∀ p ∈ line, isBlank p = true) ∧
    (docComment s = [] ∨ ofString "/**" <+: joined "\n" (docComment s) ∧
      ∀ i, StandsAt commentEnd (joined "\n" (docComment s)) i ↔
        i + commentEnd.length = (joined "\n" (docComment s)).length) ∧
    (∀ line ∈ docComment s, ∀ c ∈ line, c.is isLineBreak = false) ∧
    readComment (docComment s) = some ((plainLines s).map breakEnds) := by
  have hread : readComment (docComment s) = some ((plainLines s).map breakEnds) := by
    rw [readComment_docComment, commentBody_eq]
  have hempty : docComment s = [] ↔ plainLines s = [] := by
    have hbody : commentBody s = [] ↔ plainLines s = [] := by
      rw [commentBody_eq, List.map_eq_nil_iff]
    rw [← hbody, docComment]
    rcases commentBody s with _ | ⟨line, _ | ⟨next, more⟩⟩ <;> simp
  refine ⟨hempty.trans (plainLines_eq_nil_iff s), (joined_docComment_enclosed s).imp_right ?_,
    fun line h c hc => not_break_of_mem_docComment h hc, hread⟩
  rintro ⟨inner, htext, hinner⟩
  rw [htext]
  refine ⟨List.prefix_append _ _, fun i => ?_⟩
  rw [standsAt_commentEnd_iff hinner, List.length_append, List.length_append]
  have hlength : (ofString "/**").length = 3 := rfl
  omega

end Client
end ApiScaffold
