import ApiScaffold.Proofs.Text.Alphabet
import ApiScaffold.Proofs.Text.Pieces
import Mathlib.Data.List.Forall2
import Mathlib.Data.List.TakeWhile

namespace ApiScaffold.Text

/-- What a reader of code tells apart: words, quoted texts, and single signs. -/
inductive Lexeme where
  | word (t : Text)
  | quoted (t : Text)
  | sign (c : CodePoint)
  deriving DecidableEq, Repr

/-- The characters of words, and how texts are quoted. `unquote` gives the text behind an opening
quote and what follows the closing one, whatever that is. -/
structure Lexicon where
  isPart : Char → Bool
  quote : Char
  unquote : Text → Option (Text × Text)
  isPart_quote : isPart quote = false
  splits {t s rest : Text} :
    unquote t = some (s, rest) → ∃ body, t = body ++ .char quote :: rest
  unquote_append {t s rest : Text} (more : Text) :
    unquote t = some (s, rest) → unquote (t ++ more) = some (s, rest ++ more)

namespace Lexicon
variable {l : Lexicon} {s t rest : Text} {p : CodePoint} {xs : List Lexeme}

theorem length_lt_of_unquote (h : l.unquote t = some (s, rest)) : rest.length < t.length := by
  obtain ⟨body, rfl⟩ := l.splits h
  simp only [List.length_append, List.length_cons]
  omega

/-- Reads code, each word as far as it goes. White space does no more than end a word, and without
its closing quote a quoted text is no code. -/
def lex (l : Lexicon) : Text → Option (List Lexeme)
  | [] => some []
  | p :: t =>
    if p = .char l.quote then
      match _h : l.unquote t with
      | some (s, rest) => (l.lex rest).map (.quoted s :: ·)
      | none => none
    else if p.is l.isPart then
      (l.lex (t.dropWhile (·.is l.isPart))).map (.word (p :: t.takeWhile (·.is l.isPart)) :: ·)
    else if p.is Char.isWhitespace then l.lex t
    else (l.lex t).map (.sign p :: ·)
termination_by t => t.length
decreasing_by
  · have := length_lt_of_unquote ‹_›
    simp only [List.length_cons]
    omega
  · have := (List.dropWhile_suffix (l := t) (·.is l.isPart)).length_le
    simp only [List.length_cons]
    omega
  · simp
  · simp

@[simp] theorem lex_nil : l.lex [] = some [] := by
  rw [lex]

theorem lex_quoted (h : l.unquote t = some (s, rest)) :
    l.lex (.char l.quote :: t) = (l.lex rest).map (.quoted s :: ·) := by
  rw [lex, if_pos rfl]
  split
  · rename_i hfound
    obtain ⟨rfl, rfl⟩ := Prod.mk.inj (Option.some.inj (hfound.symm.trans h))
    rfl
  · rename_i hnone
    cases hnone.symm.trans h

theorem ne_quote_of_isPart (h : p.is l.isPart = true) : p ≠ .char l.quote := by
  rintro rfl
  have hquote : (CodePoint.char l.quote).is l.isPart = false := l.isPart_quote
  rw [hquote] at h
  cases h

theorem lex_of_over (hne : s ≠ []) (h : Over l.isPart s) : l.lex s = some [.word s] := by
  obtain ⟨p, t, rfl⟩ := List.exists_cons_of_ne_nil hne
  have ht : ∀ q ∈ t, q.is l.isPart = true := fun q hq => h q (List.mem_cons_of_mem _ hq)
  have hp := h p List.mem_cons_self
  rw [lex, if_neg (ne_quote_of_isPart hp), if_pos hp, List.dropWhile_eq_nil_iff.mpr ht,
    List.takeWhile_eq_self_iff.mpr ht, lex]
  rfl

/-- No word goes on from one text into the other. -/
def Apart (l : Lexicon) (s t : Text) : Prop :=
  ∀ p ∈ s.getLast?, p.is l.isPart = true → ∀ q ∈ t.head?, q.is l.isPart = false

theorem Apart.of_suffix {u : Text} (h : l.Apart s t) (hu : u <:+ s) : l.Apart u t := by
  intro p hp
  obtain ⟨before, rfl⟩ := hu
  exact h p (by rw [List.getLast?_append, Option.mem_def.mp hp, Option.some_or]; rfl)

theorem Apart.of_over (h : l.Apart s t) (hne : s ≠ []) (hs : Over l.isPart s) :
    ∀ q ∈ t.head?, q.is l.isPart = false :=
  h _ (List.getLast?_eq_some_getLast hne) (hs _ (List.getLast_mem hne))

/-- Where all of the first list is of a class, the second must not begin with what is. -/
theorem cut_append {α : Type} {q : α → Bool} {u t : List α}
    (h : (∀ x ∈ u, q x = true) → ∀ y ∈ t.head?, q y = false) :
    (u ++ t).takeWhile q = u.takeWhile q ∧ (u ++ t).dropWhile q = u.dropWhile q ++ t := by
  induction u with
  | nil =>
    have hhead := h (by simp)
    cases t with
    | nil => exact ⟨rfl, rfl⟩
    | cons y t => simp [hhead y rfl]
  | cons x u ih =>
    by_cases hx : q x = true
    · have hu := ih fun hu => h (List.forall_mem_cons.mpr ⟨hx, hu⟩)
      simp [hx, hu]
    · simp [hx]

/-- Texts that are apart are read one after the other. -/
theorem lex_append (hs : l.lex s = some xs) (h : l.Apart s t) :
    l.lex (s ++ t) = (l.lex t).map (xs ++ ·) := by
  fun_induction lex l s generalizing xs with
  | case1 =>
    cases hs
    simp
  | case2 u body rest hfound ih =>
    obtain ⟨ys, hys, rfl⟩ := Option.map_eq_some_iff.mp hs
    have hrest : rest <:+ .char l.quote :: u := by
      obtain ⟨before, hu⟩ := l.splits hfound
      exact ⟨.char l.quote :: before ++ [.char l.quote], by rw [hu]; simp⟩
    rw [List.cons_append, lex_quoted (l.unquote_append t hfound), ih hys (h.of_suffix hrest)]
    simp [Option.map_map, Function.comp_def]
  | case3 u hnone => cases hs
  | case4 p u hquote hpart ih =>
    obtain ⟨ys, hys, rfl⟩ := Option.map_eq_some_iff.mp hs
    have hsuffix : u.dropWhile (·.is l.isPart) <:+ p :: u :=
      (List.dropWhile_suffix _).trans (List.suffix_cons p u)
    have hrest := ih hys (h.of_suffix hsuffix)
    have hcut := cut_append (q := fun c : CodePoint => c.is l.isPart) fun hu =>
      h.of_over (List.cons_ne_nil p u) (List.forall_mem_cons.mpr ⟨hpart, hu⟩)
    rw [List.cons_append, lex, if_neg hquote, if_pos hpart, hcut.1, hcut.2, hrest]
    simp [Option.map_map, Function.comp_def]
  | case5 p u hquote hpart hblank ih =>
    rw [List.cons_append, lex, if_neg hquote, if_neg hpart, if_pos hblank]
    exact ih hs (h.of_suffix (List.suffix_cons p u))
  | case6 p u hquote hpart hblank ih =>
    obtain ⟨ys, hys, rfl⟩ := Option.map_eq_some_iff.mp hs
    rw [List.cons_append, lex, if_neg hquote, if_neg hpart, if_neg hblank,
      ih hys (h.of_suffix (List.suffix_cons p u))]
    simp [Option.map_map, Function.comp_def]

theorem apart_of_head (h : ∀ q ∈ t.head?, q.is l.isPart = false) : l.Apart s t :=
  fun _ _ _ => h

theorem apart_of_getLast (h : ∀ p ∈ s.getLast?, p.is l.isPart = false) : l.Apart s t := by
  intro p hp hpart
  rw [h p hp] at hpart
  cases hpart

theorem lex_blank {c : Char} (hc : c.isWhitespace = true) (hquote : c ≠ l.quote)
    (hpart : l.isPart c = false) (t : Text) : l.lex (.char c :: t) = l.lex t := by
  have hblank : (CodePoint.char c).is Char.isWhitespace = true := hc
  rw [lex, if_neg (by simpa using hquote), if_neg (by simp [CodePoint.is, hpart]), if_pos hblank]

theorem getLast?_of_append {α : Type} {x : α} {u t : List α} (h : (u ++ t).getLast? = some x)
    (hx : x ∉ u) : t.getLast? = some x := by
  rw [List.getLast?_append] at h
  cases ht : t.getLast? with
  | none =>
    rw [ht] at h
    exact absurd (List.mem_of_getLast? h) hx
  | some y => rwa [ht] at h

theorem getLast?_cons_of_eq_some {α : Type} {x y : α} {t : List α} (h : t.getLast? = some y) :
    (x :: t).getLast? = some y := by
  rw [List.getLast?_cons, h]
  rfl

/-- A sign at the end of the code is read last. -/
theorem getLast?_of_lex {c : Char} (hblank : c.isWhitespace = false) (hquote : c ≠ l.quote)
    (hpart : l.isPart c = false) (h : l.lex t = some xs) (hlast : t.getLast? = some (.char c)) :
    xs.getLast? = some (.sign (.char c)) := by
  fun_induction lex l t generalizing xs with
  | case1 => cases hlast
  | case2 u body rest hfound ih =>
    obtain ⟨ys, hys, rfl⟩ := Option.map_eq_some_iff.mp h
    obtain ⟨before, rfl⟩ := l.splits hfound
    rw [← List.cons_append, List.getLast?_append_of_ne_nil _ (List.cons_ne_nil _ _)] at hlast
    have hrest := getLast?_of_append (u := [CodePoint.char l.quote]) hlast (by simpa using hquote)
    exact getLast?_cons_of_eq_some (ih hys hrest)
  | case3 u hnone => cases h
  | case4 p u hq hp ih =>
    obtain ⟨ys, hys, rfl⟩ := Option.map_eq_some_iff.mp h
    have hword : .char c ∉ p :: u.takeWhile (·.is l.isPart) := by
      intro hm
      have hover : (CodePoint.char c).is l.isPart = true := by
        rcases List.mem_cons.mp hm with rfl | hm
        · exact hp
        · exact List.mem_takeWhile_imp hm
      exact absurd hover (Bool.eq_false_iff.mp hpart)
    have hcut : p :: u = (p :: u.takeWhile (·.is l.isPart)) ++ u.dropWhile (·.is l.isPart) := by
      simp
    rw [hcut] at hlast
    exact getLast?_cons_of_eq_some (ih hys (getLast?_of_append hlast hword))
  | case5 p u hq hp hwhite ih =>
    have hne : .char c ∉ [p] := by
      intro hm
      rw [← List.mem_singleton.mp hm] at hwhite
      exact absurd hwhite (Bool.eq_false_iff.mp hblank)
    exact ih h (getLast?_of_append (u := [p]) hlast hne)
  | case6 p u hq hp hwhite ih =>
    obtain ⟨ys, hys, rfl⟩ := Option.map_eq_some_iff.mp h
    cases hu : u.getLast? with
    | none =>
      obtain rfl := List.getLast?_eq_none_iff.mp hu
      rw [lex] at hys
      cases hys
      cases hlast
      rfl
    | some q =>
      rw [List.getLast?_cons, hu] at hlast
      cases hlast
      exact getLast?_cons_of_eq_some (ih hys hu)

theorem lex_append_eq_some {ys : List Lexeme} (hs : l.lex s = some xs) (ht : l.lex t = some ys)
    (h : l.Apart s t) : l.lex (s ++ t) = some (xs ++ ys) := by
  rw [lex_append hs h, ht]
  rfl

/-- A text that no word runs into and none runs out of. -/
structure Stands (l : Lexicon) (t : Text) : Prop where
  ne_nil : t ≠ []
  head : ∀ q ∈ t.head?, q.is l.isPart = false
  getLast : ∀ p ∈ t.getLast?, p.is l.isPart = false

instance : Decidable (l.Stands t) :=
  decidable_of_iff
    (t ≠ [] ∧ (∀ q ∈ t.head?, q.is l.isPart = false) ∧ ∀ p ∈ t.getLast?, p.is l.isPart = false)
    ⟨fun h => ⟨h.1, h.2.1, h.2.2⟩, fun h => ⟨h.ne_nil, h.head, h.getLast⟩⟩

theorem Stands.apart (h : l.Stands s) : l.Apart s t :=
  apart_of_getLast h.getLast

theorem Stands.append_apart {u : Text} (h : l.Stands t) : l.Apart (s ++ t) u := by
  apply apart_of_getLast
  rw [List.getLast?_append_of_ne_nil _ h.ne_nil]
  exact h.getLast

theorem lex_joined {between : Text} {ts : List Text} {ys : List Lexeme} {xss : List (List Lexeme)}
    (hb : l.lex between = some ys) (hstands : l.Stands between)
    (h : List.Forall₂ (fun t xs => l.lex t = some xs) ts xss) :
    l.lex (joined between ts) = some (ys.intercalate xss) := by
  induction h with
  | nil => simp [joined]
  | @cons t xs ts xss ht hts ih =>
    cases hts with
    | nil => simpa [joined] using ht
    | @cons u zs ts xss hu hts =>
      rw [joined, List.intercalate_cons_cons, ← joined, List.intercalate_cons_cons]
      have hopen := lex_append_eq_some ht hb (apart_of_head hstands.head)
      exact lex_append_eq_some hopen ih hstands.append_apart

/-- Items that are written alike are read alike, with what stands between them. -/
theorem lex_joined_map {α : Type} {between : Text} {ys : List Lexeme} {text : α → Text}
    {read : α → List Lexeme} {a : α} {as : List α} (hb : l.lex between = some ys)
    (hstands : l.Stands between) (h : ∀ b ∈ a :: as, l.lex (text b) = some (read b)) :
    l.lex (joined between ((a :: as).map text)) =
      some (read a ++ as.flatMap fun b => ys ++ read b) := by
  have htexts : List.Forall₂ (fun t xs => l.lex t = some xs) ((a :: as).map text)
      ((a :: as).map read) := by
    rw [List.forall₂_map_left_iff, List.forall₂_map_right_iff, List.forall₂_same]
    exact h
  rw [lex_joined hb hstands htexts, List.map_cons, intercalate_cons_eq_append_flatMap,
    List.flatMap_map]

end Lexicon

end ApiScaffold.Text
