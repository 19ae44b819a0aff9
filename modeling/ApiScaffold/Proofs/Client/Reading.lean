import ApiScaffold.Proofs.Client.Comments
import ApiScaffold.Proofs.Client.Lexicon
import ApiScaffold.Proofs.Client.Templates

namespace ApiScaffold.Client
open Text

/-- What follows the end of a comment. -/
def skipComment : Text → Option Text
  | .char '*' :: .char '/' :: rest => some rest
  | _ :: rest => skipComment rest
  | [] => none

/-- The code of the expressions in a template literal, each between braces. -/
def readParts : List Part → Option (List Lexeme)
  | [] => some []
  | .text _ :: parts => readParts parts
  | .expression code :: parts => do
    let xs ← lexicon.lex code
    let ys ← readParts parts
    some (.sign (.char '{') :: (xs ++ .sign (.char '}') :: ys))

def backtick : Lexeme :=
  .sign (.char '`')

/-- What a text begins with, and what follows it. A comment says nothing, and of a template literal
the expressions are read. A slash opens nothing but a comment, and there are no double quotes. -/
def next : Text → Option (List Lexeme × Text)
  | [] => none
  | .char '\'' :: t => (readQuoted t).map fun found => ([.quoted found.1], found.2)
  | .char '`' :: t => do
    let (parts, rest) ← Part.readText [] t
    let xs ← readParts parts
    some (backtick :: (xs ++ [backtick]), rest)
  | .char '/' :: .char '*' :: t => (skipComment t).map ([], ·)
  | p :: t =>
    if p.is (· ∈ ['/', '"']) then none
    else if p.is lexicon.isPart then
      some ([.word (p :: t.takeWhile (·.is lexicon.isPart))], t.dropWhile (·.is lexicon.isPart))
    else if p.is Char.isWhitespace then some ([], t)
    else some ([.sign p], t)

section Lengths
variable {s t rest : Text} {xs : List Lexeme}

theorem length_lt_of_skipComment (h : skipComment t = some rest) : rest.length < t.length := by
  fun_induction skipComment t with
  | case1 =>
    cases h
    simp only [List.length_cons]
    omega
  | case2 p t _ ih =>
    have := ih h
    simp only [List.length_cons]
    omega
  | case3 => cases h

theorem length_lt_of_readText {text : Text} {parts : List Part} :
    Part.readText text t = some (parts, rest) → rest.length < t.length := by
  refine Part.readText.induct
    (fun text t => ∀ parts, Part.readText text t = some (parts, rest) → rest.length < t.length)
    (fun code t => ∀ parts, Part.readCode code t = some (parts, rest) → rest.length < t.length)
    ?_ ?_ ?_ ?_ ?_ ?_ ?_ ?_ text t parts
  · intro text t parts h
    rw [Part.readText] at h
    cases h
    simp
  · intro text p t ih parts h
    rw [Part.readText_backslash] at h
    exact (ih parts h).trans (by simp only [List.length_cons]; omega)
  · intro text t ih parts h
    rw [Part.readText_dollar_brace] at h
    obtain ⟨found, hfound, he⟩ := Option.map_eq_some_iff.mp h
    cases he
    exact (ih _ hfound).trans (by simp only [List.length_cons]; omega)
  · intro text p t hquote hslash hdollar ih parts h
    rw [Part.readText] at h
    · exact (ih parts h).trans (by simp)
    · exact hquote
    · exact hslash
    · exact hdollar
  · intro text parts h
    cases h
  · intro code t ih parts h
    rw [Part.readCode] at h
    obtain ⟨found, hfound, he⟩ := Option.map_eq_some_iff.mp h
    cases he
    exact (ih _ hfound).trans (by simp)
  · intro code p t hbrace ih parts h
    rw [Part.readCode] at h
    · exact (ih parts h).trans (by simp)
    · exact hbrace
  · intro code parts h
    cases h

theorem length_lt_of_next (h : next t = some (xs, rest)) : rest.length < t.length := by
  unfold next at h
  split at h
  · cases h
  · obtain ⟨⟨s, tail⟩, hs, he⟩ := Option.map_eq_some_iff.mp h
    cases he
    exact (Lexicon.length_lt_of_unquote (l := lexicon) hs).trans (by simp)
  · obtain ⟨⟨parts, tail⟩, hparts, h⟩ := Option.bind_eq_some_iff.mp h
    obtain ⟨ys, -, h⟩ := Option.bind_eq_some_iff.mp h
    cases h
    exact (length_lt_of_readText hparts).trans (by simp)
  · obtain ⟨tail, htail, he⟩ := Option.map_eq_some_iff.mp h
    cases he
    exact (length_lt_of_skipComment htail).trans (by simp only [List.length_cons]; omega)
  · rename_i p t _ _ _
    split at h
    · cases h
    · split at h
      · cases h
        have := (List.dropWhile_suffix (l := t) (·.is lexicon.isPart)).length_le
        simp only [List.length_cons]
        omega
      · split at h <;> (cases h; simp)

end Lengths

/-- Reads a module of code to its end. -/
def read (t : Text) : Option (List Lexeme) :=
  if t = [] then some []
  else
    match _h : next t with
    | some (xs, rest) => (read rest).map (xs ++ ·)
    | none => none
termination_by t.length
decreasing_by exact length_lt_of_next ‹_›

section Reading
variable {s t rest body : Text} {parts : List Part} {xs ys : List Lexeme}

theorem read_nil : read [] = some [] := by
  rw [read, if_pos rfl]

theorem read_of_next (h : next t = some (xs, rest)) : read t = (read rest).map (xs ++ ·) := by
  have hne : t ≠ [] := by
    rintro rfl
    cases h
  rw [read, if_neg hne]
  split
  · rename_i hfound
    obtain ⟨rfl, rfl⟩ := Prod.mk.inj (Option.some.inj (hfound.symm.trans h))
    rfl
  · rename_i hnone
    cases hnone.symm.trans h

/-- The signs that code has only at the ends of comments and texts. -/
def marks : List Lexeme :=
  ['`', '/', '"'].map fun c => .sign (.char c)

/-- What begins more than a word or a sign. -/
def openers : List Char :=
  ['\'', '`', '/', '"']

/-- Whether a code point begins more than a word or a sign. -/
def opens (p : CodePoint) : Bool :=
  p.is (· ∈ openers)

theorem not_opens_iff {p : CodePoint} : opens p = false ↔ ∀ c ∈ openers, p ≠ .char c := by
  cases p with
  | surrogate n => simp [opens, CodePoint.is]
  | char a =>
    simp only [opens, CodePoint.is, decide_eq_false_iff_not, ne_eq, CodePoint.char.injEq]
    exact ⟨fun h c hc he => h (he ▸ hc), fun h hm => h a hm rfl⟩

/-- A class without openers. -/
theorem not_opens_of_is {p : CodePoint} {q : Char → Bool} (h : p.is q = true)
    (hq : openers.any q = false) : opens p = false := by
  rw [not_opens_iff]
  rintro c hc rfl
  exact Bool.false_ne_true (hq.symm.trans (List.any_eq_true.mpr ⟨c, hc, h⟩))

theorem next_of_not_opens {p : CodePoint} (h : opens p = false) (t : Text) :
    next (p :: t) =
      if p.is lexicon.isPart then
        some ([.word (p :: t.takeWhile (·.is lexicon.isPart))], t.dropWhile (·.is lexicon.isPart))
      else if p.is Char.isWhitespace then some ([], t)
      else some ([.sign p], t) := by
  rw [not_opens_iff] at h
  have hmark : p.is (· ∈ ['/', '"']) = false := by
    have hslash := h '/' (by decide)
    have hdouble := h '"' (by decide)
    cases p with
    | surrogate n => rfl
    | char c => simp_all [CodePoint.is]
  rw [next, hmark]
  · rfl
  · exact h _ (by decide)
  · exact h _ (by decide)
  · exact fun _ he => absurd he (h _ (by decide))

/-- Code without comments and templates is read as its lexemes. -/
theorem read_append_of_lex (hs : lexicon.lex s = some xs) (hxs : Free marks xs)
    (h : lexicon.Apart s rest) : read (s ++ rest) = (read rest).map (xs ++ ·) := by
  -- One lexeme after the other, and what follows is the same for both readers.
  have hstep {t tail : Text} {x ys : List Lexeme}
      (hnext : next (t ++ rest) = some (x, tail ++ rest))
      (htail : read (tail ++ rest) = (read rest).map (ys ++ ·)) :
      read (t ++ rest) = (read rest).map (x ++ ys ++ ·) := by
    rw [read_of_next hnext, htail, Option.map_map]
    simp [Function.comp_def]
  fun_induction Lexicon.lex lexicon s generalizing xs with
  | case1 =>
    cases hs
    simp
  | case2 u body tail hfound ih =>
    obtain ⟨ys, hys, rfl⟩ := Option.map_eq_some_iff.mp hs
    have hsuffix : tail <:+ .char lexicon.quote :: u := by
      obtain ⟨before, hu⟩ := lexicon.splits hfound
      exact ⟨.char lexicon.quote :: before ++ [.char lexicon.quote], by rw [hu]; simp⟩
    refine hstep (x := [.quoted body]) ?_
      (ih hys (fun x hx => hxs x (List.mem_cons_of_mem _ hx)) (h.of_suffix hsuffix))
    have happend : readQuoted (u ++ rest) = some (body, tail ++ rest) :=
      lexicon.unquote_append rest hfound
    change (readQuoted (u ++ rest)).map _ = _
    rw [happend]
    rfl
  | case3 u hnone => cases hs
  | case4 p u hquote hpart ih =>
    obtain ⟨ys, hys, rfl⟩ := Option.map_eq_some_iff.mp hs
    have hsuffix : u.dropWhile (·.is lexicon.isPart) <:+ p :: u :=
      (List.dropWhile_suffix _).trans (List.suffix_cons p u)
    refine hstep (x := [.word _]) ?_
      (ih hys (fun x hx => hxs x (List.mem_cons_of_mem _ hx)) (h.of_suffix hsuffix))
    have hcut := Lexicon.cut_append (q := fun c : CodePoint => c.is lexicon.isPart) fun hu =>
      h.of_over (List.cons_ne_nil p u) (List.forall_mem_cons.mpr ⟨hpart, hu⟩)
    have hnext := next_of_not_opens (not_opens_of_is hpart (by decide)) (u ++ rest)
    rw [List.cons_append, hnext, if_pos hpart, ← hcut.2]
    exact congrArg (fun w => some ([Lexeme.word (p :: w)], _)) hcut.1
  | case5 p u hquote hpart hblank ih =>
    refine hstep (x := []) ?_ (ih hs hxs (h.of_suffix (List.suffix_cons p u)))
    have hnext := next_of_not_opens (not_opens_of_is hblank (by decide)) (u ++ rest)
    rw [List.cons_append, hnext, if_neg hpart, if_pos hblank]
  | case6 p u hquote hpart hblank ih =>
    obtain ⟨ys, hys, rfl⟩ := Option.map_eq_some_iff.mp hs
    refine hstep (x := [.sign p]) ?_ (ih hys (fun x hx => hxs x (List.mem_cons_of_mem _ hx))
      (h.of_suffix (List.suffix_cons p u)))
    have hopens : opens p = false := by
      rw [not_opens_iff]
      rintro c hc rfl
      rcases List.mem_cons.mp hc with rfl | hc
      · exact hquote rfl
      · exact hxs _ List.mem_cons_self (List.mem_map.mpr ⟨c, hc, rfl⟩)
    rw [List.cons_append, next_of_not_opens hopens, if_neg hpart, if_neg hblank]

/-- Read as these lexemes whatever follows, unless that goes on with its last word. -/
def Reads (s : Text) (xs : List Lexeme) : Prop :=
  ∀ rest, lexicon.Apart s rest → read (s ++ rest) = (read rest).map (xs ++ ·)

theorem Reads.read_eq (h : Reads s xs) : read s = some xs := by
  have hs := h [] (Lexicon.apart_of_head (by simp))
  rw [List.append_nil, read_nil] at hs
  simpa using hs

theorem Reads.append (hs : Reads s xs) (ht : Reads t ys) (h : lexicon.Apart s t) :
    Reads (s ++ t) (xs ++ ys) := by
  intro rest hrest
  have hsrest : lexicon.Apart s (t ++ rest) := by
    cases t with
    | nil => simpa using hrest
    | cons p t => exact h
  rw [List.append_assoc, hs _ hsrest, ht _ (hrest.of_suffix (List.suffix_append s t)),
    Option.map_map]
  simp [Function.comp_def]

theorem skipComment_append (h : ¬ commentEnd <:+: body) (rest : Text) :
    skipComment (body ++ (commentEnd ++ rest)) = some rest := by
  induction body with
  | nil => rfl
  | cons p body ih =>
    rw [List.infix_cons_iff, not_or] at h
    rw [List.cons_append, skipComment, ih h.2]
    rintro tail rfl hslash
    cases body with
    | nil => cases hslash
    | cons q body =>
      obtain rfl := (List.cons.inj hslash).1
      exact h.1 ⟨body, rfl⟩

theorem reads_comment (h : ¬ commentEnd <:+: body) : Reads ("/*" ++ (body ++ commentEnd)) [] := by
  intro rest _
  have hnext : next ("/*" ++ (body ++ commentEnd) ++ rest) = some ([], rest) := by
    have hskip := skipComment_append h rest
    rw [← List.append_assoc] at hskip
    change (skipComment (body ++ commentEnd ++ rest)).map ([], ·) = _
    rw [hskip]
    rfl
  rw [read_of_next hnext]

theorem reads_template (h : ∀ code, .expression code ∈ parts → .char '}' ∉ code)
    (hparts : readParts (Part.gather [] parts) = some xs) :
    Reads (template parts) (backtick :: (xs ++ [backtick])) := by
  intro rest _
  have htext : template parts ++ rest =
      .char '`' :: (Part.write [] parts ++ .char '`' :: rest) := by
    simp [template, ofString, ofChars]
  have hnext : next (template parts ++ rest) = some (backtick :: (xs ++ [backtick]), rest) := by
    rw [htext, next, Part.readText_write h]
    simp [hparts]
  rw [read_of_next hnext]

end Reading

end ApiScaffold.Client
