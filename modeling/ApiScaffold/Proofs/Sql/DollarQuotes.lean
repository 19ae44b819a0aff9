import ApiScaffold.Proofs.Sql.FunctionLines
import Mathlib.Logic.Basic

namespace ApiScaffold
open Text

namespace Sql
variable {t text part : Text}

/-- The quote that opens and closes the body of a function. -/
def bodyQuote : Text :=
  "$$"

/-- Quotes are broken up pair by pair, so the third dollar of a row still follows the second. -/
def leftoverQuote : Text :=
  "$$$"

theorem free_of_over {p : Char → Bool} (hpart : ∀ c ∈ part, c = .char '$') (h : Over p t)
    (hp : p '$' = false) : Free part t := by
  intro c hc hd
  obtain rfl := hpart c hd
  exact h.not_mem hp hc

theorem not_blank_mem_bodyQuote {c : CodePoint} (h : isBlank c = true) : c ∉ bodyQuote := by
  intro hc
  obtain rfl := (by decide : ∀ c ∈ bodyQuote, c = .char '$') c hc
  exact absurd h (by decide)

/-- The lines of a comment hold a quote just where its text has three dollars in a row. -/
theorem exists_bodyQuote_infix_commentLines_iff :
    (∃ l ∈ commentLines text, bodyQuote <:+: l) ↔ leftoverQuote <:+: text := by
  let broken := replacePair (.char '$') (.char '$') "$ $" text
  have htrim (line : Text) : bodyQuote <:+: trimEnd ("-- " ++ line) ↔ bodyQuote <:+: line := by
    rw [infix_trimEnd_iff (fun c hc => not_blank_mem_bodyQuote hc) (by decide),
      infix_append_iff_right (by decide) (by decide)]
  have hlines : (∃ line ∈ (if (splitLines broken).isEmpty then [[]] else splitLines broken),
      bodyQuote <:+: line) ↔ bodyQuote <:+: broken := by
    rw [infix_iff_exists_line (by decide) (by decide)]
    split
    · rename_i he
      simp [List.isEmpty_iff.mp he, bodyQuote, ofString, ofChars]
    · rfl
  calc (∃ l ∈ commentLines text, bodyQuote <:+: l)
      ↔ ∃ line ∈ (if (splitLines broken).isEmpty then [[]] else splitLines broken),
          bodyQuote <:+: line := by
        simp only [commentLines, List.mem_map, exists_exists_and_eq_and, htrim, broken]
    _ ↔ bodyQuote <:+: broken := hlines
    _ ↔ leftoverQuote <:+: text := pair_infix_replacePair_iff (by decide)

end Sql

namespace Endpoint
variable (f : Endpoint)
open Sql

/-- The name that stands for the request body in comments. -/
def bodyName : Text :=
  (nonEmpty? f.requestBody).getD f.name

/-- The texts of the endpoint that the comments of the body repeat as they are. -/
def repeated : List Text :=
  match f.method with
  | .get => f.queryParameters.map (·.name)
  | .post => [f.bodyName]
  | .put | .patch => f.bodyName :: if f.pathParameters.isEmpty then [f.name] else []
  | .delete | .head | .options | .trace => []

theorem pathParameters_isEmpty : f.pathParameters.isEmpty = f.pathFilter.isEmpty := by
  have hlength : f.parameters.length ≤
      ((cleanAll "param" (f.parameters.map (·.name))).zip f.argumentNames).length := by
    simp
  have hzip := List.map_fst_zip hlength
  unfold pathParameters located pathFilter
  rw [List.isEmpty_map, ← List.isEmpty_map (f := Prod.fst)]
  conv => lhs; rw [← hzip, List.filter_map]
  rfl

theorem free_tableName : Free leftoverQuote f.tableName :=
  free_of_over (by decide) f.over_tableName (by decide)

theorem leftoverQuote_infix_bodyPlaceholder_iff : ∃ text, f.bodyPlaceholder = .comment text ∧
    (leftoverQuote <:+: text ↔ leftoverQuote <:+: f.bodyName) := by
  refine ⟨_, rfl, ?_⟩
  unfold bodyName
  cases nonEmpty? f.requestBody with
  | some body =>
    have hafter := (Free.append (s := " onto the columns of ") (by decide) f.free_tableName).append
      (t := ".") (by decide)
    simpa using infix_between_iff (s := "PLACEHOLDER: map the fields of request body ")
      (t := body) (by decide) hafter (by decide)
  | none =>
    have hafter := (Free.append
      (s := " declares no request body; map its inputs onto the columns of ") (by decide)
      f.free_tableName).append (t := ".") (by decide)
    simpa using infix_between_iff (s := "PLACEHOLDER: ") (t := f.name) (by decide) hafter
      (by decide)

theorem leftoverQuote_infix_updateTarget_iff : ∃ text, f.updateTarget = .comment text ∧
    (leftoverQuote <:+: text ↔ f.pathParameters.isEmpty ∧ leftoverQuote <:+: f.name) := by
  refine ⟨_, rfl, ?_⟩
  rw [pathParameters_isEmpty]
  split
  · rename_i he
    rw [infix_between_iff (by decide) (by decide) (by decide)]
    simp [he]
  · rename_i he
    have hfree : Free leftoverQuote (conjunction f.pathFilter) :=
      free_of_over (by decide) (over_conjunction f.isNamed_of_mem_pathFilter) (by decide)
    have hnone := (Free.append (s := "Target rows: WHERE ") (by decide) hfree).not_occurs
      (by decide)
    simp [he, hnone]

/-- Three dollars in a row get into a comment only from the repeated texts. -/
theorem exists_leftoverQuote_note_iff :
    (∃ text ∈ f.notes, leftoverQuote <:+: text) ↔ ∃ s ∈ f.repeated, leftoverQuote <:+: s := by
  obtain ⟨body, hbody, hbodyIff⟩ := f.leftoverQuote_infix_bodyPlaceholder_iff
  obtain ⟨target, htarget, htargetIff⟩ := f.leftoverQuote_infix_updateTarget_iff
  unfold notes statements repeated
  cases f.method with
  | get =>
    have hnote (name : Text) : leftoverQuote <:+: "Query parameter '" ++ name ++
        "' is accepted but not applied as a filter." ↔ leftoverQuote <:+: name :=
      infix_between_iff (by decide) (by decide) (by decide)
    simp [hnote, -List.append_assoc]
  | post => simp [hbody, hbodyIff]
  | put | patch =>
    by_cases he : f.pathParameters.isEmpty
    · simp [hbody, htarget, hbodyIff, htargetIff, he]
    · simp [hbody, htarget, hbodyIff, htargetIff, he]
  | delete => simp
  | head | options | trace => simpa using Free.not_occurs (by decide) (by decide)

theorem standsAt_bodyQuote_iff {i : Nat} : StandsAt bodyQuote bodyQuote i ↔ i = 0 := by
  match i with
  | 0 => decide
  | 1 => decide
  | i + 2 => simp [StandsAt, bodyQuote, ofString, ofChars]

/-- The text of the function in front of the quote that opens its body. -/
def opening (policy : Name.Policy) : Text :=
  Text.joined "\n" (f.head policy ++ [Text.ofString "AS "])

/-- What stands between the two quotes: each line of the body, and line breaks around them. -/
def body : Text :=
  (f.noteLines ++ f.executedLines).flatMap ([.char '\n'] ++ ·) ++ [.char '\n']

theorem head?_body_append (t : Text) : (f.body ++ t).head? = some (.char '\n') := by
  unfold body
  cases f.noteLines ++ f.executedLines <;> rfl

theorem sql_eq (policy : Name.Policy) :
    f.sql policy = f.opening policy ++ (bodyQuote ++ (f.body ++ (bodyQuote ++ ";"))) := by
  change Text.joined "\n" (f.definition policy).lines = _
  rw [lines_definition]
  simp only [head, opening, body, Text.joined, List.cons_append, List.nil_append,
    intercalate_cons_eq_append_flatMap, List.flatMap_cons, List.flatMap_nil,
    List.flatMap_append, List.append_assoc, List.append_nil]
  rfl

theorem free_opening (policy : Name.Policy) : Free bodyQuote (f.opening policy) := by
  have hover : Over (fun c => isCodeChar c || c == '\n') (f.opening policy) := by
    apply Over.joined (by decide)
    intro line hline
    rcases List.mem_append.mp hline with hline | hline
    · exact (f.over_of_mem_head hline).mono fun c hc => by simp [hc]
    · obtain rfl := List.mem_singleton.mp hline
      decide
  exact free_of_over (by decide) hover (by decide)

theorem bodyQuote_infix_body_iff :
    bodyQuote <:+: f.body ↔ ∃ s ∈ f.repeated, leftoverQuote <:+: s := by
  have hexecuted : ¬ ∃ line ∈ f.executedLines, bodyQuote <:+: line := by
    rintro ⟨line, hline, hq⟩
    have hdollar := f.not_mem_of_mem_executedLines hline (c := '$') (by decide) (by decide)
    exact hdollar (hq.subset List.mem_cons_self)
  have hindent (l : Text) : bodyQuote <:+: indent ++ l ↔ bodyQuote <:+: l :=
    infix_append_iff_right (by decide) (by decide)
  calc bodyQuote <:+: f.body
      ↔ ∃ line ∈ f.noteLines ++ f.executedLines, bodyQuote <:+: line := by
        rw [body, infix_append_iff_left (by decide) (by decide),
          infix_flatMap_iff (by decide) (by decide)]
    _ ↔ ∃ line ∈ f.noteLines, bodyQuote <:+: line := by
        simp only [List.mem_append, or_and_right, exists_or, or_iff_left hexecuted]
    _ ↔ ∃ text ∈ f.notes, ∃ l ∈ commentLines text, bodyQuote <:+: l := by
        simp only [noteLines, List.mem_map, List.mem_flatMap, exists_exists_and_eq_and, hindent]
        constructor
        · rintro ⟨l, ⟨text, ht, hl⟩, hq⟩
          exact ⟨text, ht, l, hl, hq⟩
        · rintro ⟨text, ht, l, hl, hq⟩
          exact ⟨l, ⟨text, ht, hl⟩, hq⟩
    _ ↔ ∃ text ∈ f.notes, leftoverQuote <:+: text := by
        simp only [exists_bodyQuote_infix_commentLines_iff]
    _ ↔ ∃ s ∈ f.repeated, leftoverQuote <:+: s := f.exists_leftoverQuote_note_iff

/-- Apart from the two quotes around the body, a quote can only stand inside it. -/
theorem standsAt_sql_iff (policy : Name.Policy) (i : Nat) :
    StandsAt bodyQuote (f.sql policy) i ↔
      i = (f.opening policy).length ∨
      (∃ j, i = (f.opening policy).length + 2 + j ∧ StandsAt bodyQuote f.body j) ∨
      i = (f.opening policy).length + 2 + f.body.length := by
  have hne : bodyQuote ≠ [] := by decide
  have hopening := f.free_opening policy
  have hquote : Seam bodyQuote bodyQuote (f.body ++ (bodyQuote ++ ";")) := by
    apply seam_of_head
    intro c hc
    rw [head?_body_append] at hc
    cases hc
    decide
  have hbody : Seam bodyQuote f.body (bodyQuote ++ ";") := by
    intro c hc
    rw [body, List.getLast?_concat] at hc
    cases hc
    exact fun _ _ hm => absurd hm (by decide)
  have hsemicolon : Free bodyQuote (Text.ofString ";") := by decide
  have hclose (k : Nat) : StandsAt bodyQuote (bodyQuote ++ ";") k ↔ k = 0 := by
    rw [(seam_of_head (by decide)).standsAt_append_iff hne, standsAt_bodyQuote_iff]
    simp only [hsemicolon.not_standsAt hne, and_false, exists_false, or_false]
  have hend (k : Nat) : StandsAt bodyQuote (f.body ++ (bodyQuote ++ ";")) k ↔
      StandsAt bodyQuote f.body k ∨ k = f.body.length := by
    simp only [hbody.standsAt_append_iff hne, hclose, exists_eq_right, Nat.add_zero]
  rw [sql_eq, hopening.seam.standsAt_append_iff hne, or_iff_right (hopening.not_standsAt hne)]
  simp only [hquote.standsAt_append_iff hne, standsAt_bodyQuote_iff, hend]
  constructor
  · rintro ⟨_, rfl, rfl | ⟨j, rfl, hj | rfl⟩⟩
    · exact .inl (Nat.add_zero _)
    · exact .inr (.inl ⟨j, (Nat.add_assoc _ _ _).symm, hj⟩)
    · exact .inr (.inr (Nat.add_assoc _ _ _).symm)
  · rintro (rfl | ⟨j, rfl, hj⟩ | rfl)
    · exact ⟨0, rfl, .inl rfl⟩
    · exact ⟨2 + j, Nat.add_assoc _ _ _, .inr ⟨j, rfl, .inl hj⟩⟩
    · exact ⟨2 + f.body.length, Nat.add_assoc _ _ _, .inr ⟨_, rfl, .inr rfl⟩⟩

/-- The quotes around the body are the only ones just when no text that its comments repeat has
three dollars in a row. -/
theorem bodyQuote_only_around_body_iff (policy : Name.Policy) :
    f.sql policy = f.opening policy ++ bodyQuote ++ f.body ++ bodyQuote ++ ";" ∧
    ((∀ i, StandsAt bodyQuote (f.sql policy) i ↔
        i = (f.opening policy).length ∨ i = (f.opening policy ++ bodyQuote ++ f.body).length) ↔
      ∀ s ∈ f.repeated, ¬ leftoverQuote <:+: s) := by
  refine ⟨by simp [sql_eq], ?_⟩
  have hend : (f.opening policy ++ bodyQuote ++ f.body).length =
      (f.opening policy).length + 2 + f.body.length := by
    simp only [List.length_append]
    rfl
  rw [hend]
  constructor
  · intro honly s hs hq
    obtain ⟨j, hj⟩ := exists_standsAt_iff.mpr (f.bodyQuote_infix_body_iff.mpr ⟨s, hs, hq⟩)
    have hlt : j < f.body.length := lt_length_of_standsAt (by decide) hj
    have hplace := (f.standsAt_sql_iff policy _).mpr (.inr (.inl ⟨j, rfl, hj⟩))
    rcases (honly _).mp hplace with he | he
    · omega
    · omega
  · intro hnone i
    have hbody : ¬ ∃ j, i = (f.opening policy).length + 2 + j ∧ StandsAt bodyQuote f.body j := by
      rintro ⟨j, -, hj⟩
      obtain ⟨s, hs, hq⟩ := f.bodyQuote_infix_body_iff.mp (exists_standsAt_iff.mp ⟨j, hj⟩)
      exact hnone s hs hq
    rw [standsAt_sql_iff, or_iff_right hbody]

/-- A query parameter named by three dollars puts a third quote into the body. -/
def threeDollars : Endpoint :=
  { name := "f", method := .get, path := "/p", requestBody := none, responseBody := none,
    parameters := [⟨"$$$", .query, false, .string⟩], summary := "" }

theorem third_bodyQuote_threeDollars :
    ¬ ∃ a b, ∀ i, StandsAt bodyQuote (threeDollars.sql .standard) i ↔ i = a ∨ i = b := by
  rintro ⟨a, b, h⟩
  have hbody : bodyQuote <:+: threeDollars.body :=
    threeDollars.bodyQuote_infix_body_iff.mpr ⟨"$$$", List.mem_cons_self, List.infix_refl _⟩
  obtain ⟨j, hj⟩ := exists_standsAt_iff.mpr hbody
  have hlt := lt_length_of_standsAt (by decide) hj
  have hopening := (h _).mp ((threeDollars.standsAt_sql_iff .standard _).mpr (.inl rfl))
  have hinside := (h _).mp
    ((threeDollars.standsAt_sql_iff .standard _).mpr (.inr (.inl ⟨j, rfl, hj⟩)))
  have hclosing := (h _).mp ((threeDollars.standsAt_sql_iff .standard _).mpr (.inr (.inr rfl)))
  omega

end Endpoint
end ApiScaffold
