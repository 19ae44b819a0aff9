import ApiScaffold.Proofs.Client.Expressions

namespace ApiScaffold.Client
open Text
variable {p : CodePoint} {s t : Text}

section Passes

/-- Writes a text wherever a character stands. -/
def replaceChar (c : Char) (new t : Text) : Text :=
  t.flatMap fun p => if p = .char c then new else [p]

/-- The escapes in the order in which they are written. The backslash comes first, as every escape
begins with one. -/
def escapes : List (Char × Text) :=
  [('\\', "\\\\"), ('\'', "\\'"), ('\n', "\\n"), ('\r', "\\r"), ('\u2028', "\\u2028"),
    ('\u2029', "\\u2029")]

/-- Escapes a text in several passes, each of them over what the passes before have written. -/
def escapeInPasses (t : Text) : Text :=
  escapes.foldl (fun t e => replaceChar e.1 e.2 t) t

theorem replaceChar_append (c : Char) (new s t : Text) :
    replaceChar c new (s ++ t) = replaceChar c new s ++ replaceChar c new t :=
  List.flatMap_append

theorem replaceChar_singleton_of_ne {c : Char} (h : p ≠ .char c) (new : Text) :
    replaceChar c new [p] = [p] := by
  simp [replaceChar, h]

theorem escapeInPasses_append (s t : Text) :
    escapeInPasses (s ++ t) = escapeInPasses s ++ escapeInPasses t := by
  simp only [escapeInPasses, escapes, List.foldl_cons, List.foldl_nil, replaceChar_append]

/-- No pass rewrites what a pass before has written, so each character is escaped once. -/
theorem escapeInPasses_singleton (p : CodePoint) :
    escapeInPasses [p] = flatMapChars escapeChar [p] := by
  cases p with
  | surrogate n => rfl
  | char c =>
    by_cases hc : c ∈ escaped
    · simp only [escaped, List.mem_cons, List.not_mem_nil, or_false] at hc
      rcases hc with rfl | rfl | rfl | rfl | rfl | rfl <;> rfl
    · have hself : flatMapChars escapeChar [.char c] = [.char c] := by
        simp [flatMapChars, escapeChar_of_not_mem hc, ofChars]
      have hpass : ∀ e ∈ escapes, CodePoint.char c ≠ .char e.1 := by
        simp only [escaped, List.mem_cons, not_or] at hc
        simp [escapes, hc]
      rw [hself, escapeInPasses]
      simp only [escapes, List.forall_mem_cons, List.foldl_cons, List.foldl_nil] at hpass ⊢
      simp [replaceChar_singleton_of_ne, hpass]

theorem escapeInPasses_eq (s : Text) : escapeInPasses s = flatMapChars escapeChar s := by
  induction s with
  | nil => rfl
  | cons p rest ih =>
    have hsplit : p :: rest = [p] ++ rest := rfl
    rw [hsplit, escapeInPasses_append, ih, escapeInPasses_singleton]
    simp [flatMapChars]

end Passes

section Undoing

/-- A text without its escapes. -/
def unescape : Text → Text
  | .char '\\' :: .char '\\' :: rest => .char '\\' :: unescape rest
  | .char '\\' :: .char '\'' :: rest => .char '\'' :: unescape rest
  | .char '\\' :: .char 'n' :: rest => .char '\n' :: unescape rest
  | .char '\\' :: .char 'r' :: rest => .char '\r' :: unescape rest
  | .char '\\' :: .char 'u' :: .char '2' :: .char '0' :: .char '2' :: .char '8' :: rest =>
    .char '\u2028' :: unescape rest
  | .char '\\' :: .char 'u' :: .char '2' :: .char '0' :: .char '2' :: .char '9' :: rest =>
    .char '\u2029' :: unescape rest
  | p :: rest => p :: unescape rest
  | [] => []

/-- What stands in a text without a backslash before it. A backslash takes the code point behind it
along, so one that is left over has nothing behind it. -/
def bare : Text → Text
  | .char '\\' :: _ :: rest => bare rest
  | p :: rest => p :: bare rest
  | [] => []

theorem unescape_cons_of_ne (h : p ≠ .char '\\') (t : Text) :
    unescape (p :: t) = p :: unescape t := by
  rw [unescape] <;> simp_all

theorem bare_cons_of_ne (h : p ≠ .char '\\') (t : Text) : bare (p :: t) = p :: bare t := by
  rw [bare]
  simp_all

theorem ne_backslash_of_not_mem {c : Char} (h : c ∉ escaped) : CodePoint.char c ≠ .char '\\' := by
  rintro ⟨rfl⟩
  simp [escaped] at h

theorem unescape_escapeChar (c : Char) (t : Text) :
    unescape (ofChars (escapeChar c) ++ t) = .char c :: unescape t := by
  by_cases hc : c ∈ escaped
  · simp only [escaped, List.mem_cons, List.not_mem_nil, or_false] at hc
    rcases hc with rfl | rfl | rfl | rfl | rfl | rfl <;> rfl
  · rw [escapeChar_of_not_mem hc]
    exact unescape_cons_of_ne (ne_backslash_of_not_mem hc) t

theorem unescape_flatMapChars (s : Text) : unescape (flatMapChars escapeChar s) = s := by
  induction s with
  | nil => rfl
  | cons p rest ih =>
    cases p with
    | surrogate n =>
      change unescape (.surrogate n :: flatMapChars escapeChar rest) = _
      rw [unescape_cons_of_ne (by simp), ih]
    | char c =>
      change unescape (ofChars (escapeChar c) ++ flatMapChars escapeChar rest) = _
      rw [unescape_escapeChar, ih]

/-- Neither a quote nor a backslash is left without a backslash before it. -/
def Guarded (t : Text) : Prop :=
  ∀ p ∈ bare t, p ≠ .char '\'' ∧ p ≠ .char '\\'

/-- An escape leaves nothing behind, or the digits of a line separator. -/
theorem bare_escapeChar {c : Char} (h : c ∈ escaped) (t : Text) :
    ∃ digits : Text, (∀ p ∈ digits, p ≠ .char '\'' ∧ p ≠ .char '\\') ∧
      bare (ofChars (escapeChar c) ++ t) = digits ++ bare t := by
  simp only [escaped, List.mem_cons, List.not_mem_nil, or_false] at h
  rcases h with rfl | rfl | rfl | rfl | rfl | rfl
  · exact ⟨[], by simp, rfl⟩
  · exact ⟨[], by simp, rfl⟩
  · exact ⟨[], by simp, rfl⟩
  · exact ⟨[], by simp, rfl⟩
  · exact ⟨"2028", by decide, rfl⟩
  · exact ⟨"2029", by decide, rfl⟩

theorem guarded_escapeChar (c : Char) (h : Guarded t) :
    Guarded (ofChars (escapeChar c) ++ t) := by
  by_cases hc : c ∈ escaped
  · obtain ⟨digits, hdigits, hbare⟩ := bare_escapeChar hc t
    rw [Guarded, hbare, List.forall_mem_append]
    exact ⟨hdigits, h⟩
  · have hquote : CodePoint.char c ≠ .char '\'' := by
      rintro ⟨rfl⟩
      simp [escaped] at hc
    have hslash := ne_backslash_of_not_mem hc
    rw [escapeChar_of_not_mem hc, Guarded]
    change ∀ p ∈ bare (.char c :: t), _
    rw [bare_cons_of_ne hslash, List.forall_mem_cons]
    exact ⟨⟨hquote, hslash⟩, h⟩

theorem guarded_flatMapChars (s : Text) : Guarded (flatMapChars escapeChar s) := by
  induction s with
  | nil => simp [Guarded, flatMapChars, bare]
  | cons p rest ih =>
    cases p with
    | surrogate n =>
      change ∀ p ∈ bare (.surrogate n :: flatMapChars escapeChar rest), _
      rw [bare_cons_of_ne (by simp), List.forall_mem_cons]
      exact ⟨⟨by simp, by simp⟩, ih⟩
    | char c => exact guarded_escapeChar c ih

/-- The characters that end a line of code. -/
def isLineEnd (c : Char) : Bool :=
  c == '\n' || c == '\r' || c == '\u2028' || c == '\u2029'

theorem isLineEnd_escapeChar (c : Char) : ∀ d ∈ escapeChar c, isLineEnd d = false := by
  by_cases hc : c ∈ escaped
  · have hnone : (escapeChar c).any isLineEnd = false := by
      simp only [escaped, List.mem_cons, List.not_mem_nil, or_false] at hc
      rcases hc with rfl | rfl | rfl | rfl | rfl | rfl <;> rfl
    exact fun d hd => Bool.eq_false_iff.mpr (List.any_eq_false.mp hnone d hd)
  · rw [escapeChar_of_not_mem hc]
    simp only [escaped, List.mem_cons, List.not_mem_nil, or_false, not_or] at hc
    simp [isLineEnd, hc]

theorem isLineEnd_of_mem_literal (h : p ∈ literal s) : p.is isLineEnd = false := by
  rw [literal_eq, List.mem_cons, List.mem_append, List.mem_singleton] at h
  rcases h with rfl | h | rfl
  · rfl
  · obtain ⟨q, -, hq⟩ := List.mem_flatMap.mp h
    cases q with
    | surrogate n =>
      cases List.mem_singleton.mp hq
      rfl
    | char c =>
      obtain ⟨d, hd, rfl⟩ := List.mem_map.mp hq
      exact isLineEnd_escapeChar c d hd
  · rfl

/-- A literal is what the passes write, between two quotes. No quote in between is one that ends it,
no line ends in it, undoing the escapes gives the value back, and so no two values have the same
literal. -/
theorem literal_undone (s : Text) :
    ∃ body, literal s = "'" ++ body ++ "'" ∧ body = escapeInPasses s ∧ Guarded body ∧
      (∀ p ∈ literal s, p.is isLineEnd = false) ∧ unescape body = s ∧
      ∀ t, literal t = literal s → t = s := by
  refine ⟨flatMapChars escapeChar s, rfl, (escapeInPasses_eq s).symm, guarded_flatMapChars s,
    fun p hp => isLineEnd_of_mem_literal hp, unescape_flatMapChars s, fun t h => ?_⟩
  exact literal_injective h

end Undoing

end ApiScaffold.Client
