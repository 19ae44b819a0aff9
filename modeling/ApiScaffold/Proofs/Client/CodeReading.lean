import ApiScaffold.Client.Code
import ApiScaffold.Proofs.Client.HookScope
import ApiScaffold.Proofs.Client.Mentions

namespace ApiScaffold.Client
open Text

namespace Code
variable {c d e : Code} {g k : Code → Code} {ms ns : List Mention} {s : Text}

/-- Code that goes on with a new line, and says these things from there. -/
def GoesOn (c d : Code) (ms : List Mention) : Prop :=
  d.lines ≠ [] ∧ ∃ t, d.text = c.text ++ t ∧ Tells t ms ∧ ∀ p ∈ t.head?, p.is isNamePart = false

theorem GoesOn.refl (h : c.lines ≠ []) : GoesOn c c [] :=
  ⟨h, [], (List.append_nil _).symm, tells_of_isSilent (by decide +kernel), by simp⟩

theorem GoesOn.trans (hd : GoesOn c d ms) (he : GoesOn d e ns) : GoesOn c e (ms ++ ns) := by
  obtain ⟨-, t, hdt, ht, hhead⟩ := hd
  obtain ⟨hne, u, heu, hu, hhead'⟩ := he
  refine ⟨hne, t ++ u, by rw [heu, hdt, List.append_assoc],
    ht.append hu (Lexicon.apart_of_head hhead'), ?_⟩
  cases t with
  | nil => exact hhead'
  | cons p t => exact hhead

theorem GoesOn.tells (h : GoesOn c d ms) (hc : Tells c.text ns) : Tells d.text (ns ++ ms) := by
  obtain ⟨-, t, hd, ht, hhead⟩ := h
  rw [hd]
  exact hc.append ht (Lexicon.apart_of_head hhead)

/-- Writes code that says these things behind what is written. -/
def Adds (g : Code → Code) (ms : List Mention) : Prop :=
  ∀ c, c.lines ≠ [] → GoesOn c (g c) ms

theorem Adds.id : Adds (fun c => c) [] :=
  fun _ h => .refl h

theorem Adds.comp (hk : Adds k ns) (hg : Adds g ms) : Adds (fun c => k (g c)) (ms ++ ns) :=
  fun c hc => (hg c hc).trans (hk (g c) (hg c hc).1)

theorem joined_append {between : Text} {ss ts : List Text} (hs : ss ≠ []) (ht : ts ≠ []) :
    joined between (ss ++ ts) = joined between ss ++ (between ++ joined between ts) := by
  obtain ⟨s, ss, rfl⟩ := List.exists_cons_of_ne_nil hs
  obtain ⟨t, ts, rfl⟩ := List.exists_cons_of_ne_nil ht
  simp [joined, intercalate_cons_eq_append_flatMap]

theorem text_line (h : c.lines ≠ []) (s : Text) :
    (c.line s).text = c.text ++
      ([.char '\n'] ++ if s.isEmpty then s else indent c.level ++ s) := by
  rw [Code.text, line, joined_append h (List.cons_ne_nil _ _)]
  simp [Code.text, joined, ofString, ofChars]

theorem tells_indent (level : Int) : Tells (indent level) [] := by
  have hlex : lexicon.lex (indent level) = some [] := by
    unfold indent
    induction 2 * level.toNat with
    | zero => exact Lexicon.lex_nil
    | succ n ih =>
      rw [List.replicate_succ, Lexicon.lex_blank (by decide) (by decide) (by decide)]
      exact ih
  exact tells_of_lex hlex (by simp [Free]) yields_nil

theorem apart_indent (level : Int) (t : Text) : lexicon.Apart (indent level) t := by
  apply Lexicon.apart_of_getLast
  intro p hp
  obtain rfl := List.eq_of_mem_replicate (List.mem_of_getLast? hp)
  decide

/-- A line is read as its text, wherever it stands. -/
theorem goesOn_line (h : c.lines ≠ []) (hs : Tells s ns) : GoesOn c (c.line s) ns := by
  refine ⟨by simp [Code.line], _, text_line h s, ?_, by rintro p ⟨⟩; decide⟩
  have hbreak : Tells [.char '\n'] [] := tells_of_isSilent (by decide +kernel)
  have hstands : lexicon.Stands [.char '\n'] := by decide
  split
  · exact hbreak.append hs hstands.apart
  · exact hbreak.append ((tells_indent c.level).append hs (apart_indent c.level s)) hstands.apart

theorem Adds.line (hg : Adds g ms) (h : Tells s ns) :
    Adds (fun c => (g c).line s) (ms ++ ns) :=
  comp (k := fun c => c.line s) (fun _ hc => goesOn_line hc h) hg

theorem Adds.enter (hg : Adds g ms) (h : Tells s ns) :
    Adds (fun c => (g c).enter s) (ms ++ ns) :=
  comp (k := fun c => c.enter s) (fun _ hc => goesOn_line hc h) hg

theorem Adds.leave (hg : Adds g ms) (h : Tells s ns) :
    Adds (fun c => (g c).leave s) (ms ++ ns) :=
  comp (k := fun c => c.leave s) (fun c hc => goesOn_line (c := ⟨c.lines, c.level - 1⟩) hc h) hg

theorem Adds.lineAll {texts : List Text} (hg : Adds g ms) (h : ∀ t ∈ texts, Tells t []) :
    Adds (fun c => (g c).lineAll texts) ms := by
  induction texts generalizing g with
  | nil => exact hg
  | cons text texts ih =>
    have hline := hg.line (h text List.mem_cons_self)
    rw [List.append_nil] at hline
    exact ih hline fun t ht => h t (List.mem_cons_of_mem _ ht)

theorem lines_lineAll_top (hl : c.level = 0) (texts : List Text) :
    (c.lineAll texts).lines = c.lines ++ texts := by
  induction texts generalizing c with
  | nil => exact (List.append_nil _).symm
  | cons text texts ih =>
    have hline : ((c.line text).lineAll texts).lines = (c.line text).lines ++ texts := ih hl
    rw [lines_line_top hl, List.append_assoc] at hline
    exact hline

/-- A comment says nothing. -/
theorem goesOn_docComment (h : c.lines ≠ []) (hl : c.level = 0) (s : Text) :
    GoesOn c (c.lineAll (docComment s)) [] := by
  have hlines := lines_lineAll_top hl (docComment s)
  refine ⟨by simp [hlines, h], ?_⟩
  rcases joined_docComment s with hnone | ⟨body, hbody, hend⟩
  · rw [hnone]
    exact (GoesOn.refl h).2
  · have hne : docComment s ≠ [] := by
      intro hnone
      rw [hnone] at hbody
      cases hbody
    have hbreak : Tells [.char '\n'] [] := tells_of_isSilent (by decide +kernel)
    have hstands : lexicon.Stands [.char '\n'] := by decide
    have hcomment : Tells (joined "\n" (docComment s)) [] :=
      ⟨[], hbody ▸ reads_comment hend, by simp [Free], yields_nil⟩
    refine ⟨[.char '\n'] ++ joined "\n" (docComment s), ?_, hbreak.append hcomment hstands.apart,
      by rintro p ⟨⟩; decide⟩
    rw [Code.text, hlines, joined_append h hne]
    rfl

end Code

end ApiScaffold.Client
