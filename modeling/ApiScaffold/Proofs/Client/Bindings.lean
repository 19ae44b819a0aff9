import ApiScaffold.Client.Hook
import ApiScaffold.Proofs.Text.Alphabet
import Mathlib.Data.List.Basic

namespace ApiScaffold.Client
open Text

/-- What binds a name at the top level of a hook module. -/
inductive Binder where
  | importValue
  | importType
  | interface
  | function

namespace Binder

def all : List Binder :=
  [importValue, importType, interface, function]

/-- How a line begins that binds names. -/
def opening : Binder → Text
  | importValue => "import \x7b "
  | importType => "import type \x7b "
  | interface => "export interface "
  | function => "export function "

/-- The character behind the names. -/
def closing : Binder → Char
  | importValue | importType => '\x7d'
  | interface => '\x7b'
  | function => '('

end Binder

/-- The runs of characters that may stand in a name. -/
def words (t : Text) : List Text :=
  (t.splitOnP fun p => !p.is isNamePart).filter (· ≠ [])

def Binder.names (b : Binder) (line : Text) : List Text :=
  match line.dropPrefix? b.opening with
  | some rest => words (rest.takeWhile (· != .char b.closing))
  | none => []

/-- The names that a line binds at the top level. -/
def boundBy (line : Text) : List Text :=
  Binder.all.flatMap (·.names line)

/-- The names that the lines of a module bind at its top level, in their order. -/
def Code.bound (c : Code) : List Text :=
  c.lines.flatMap boundBy

section Words
variable {s t gap rest : Text} {names : List Text}

/-- A text that is one word. -/
def IsWord (t : Text) : Prop :=
  t ≠ [] ∧ Over isNamePart t

theorem words_nil : words [] = [] := by
  simp [words]

theorem words_append_cons {c : CodePoint} (hc : c.is isNamePart = false) (s t : Text) :
    words (s ++ c :: t) = words s ++ words t := by
  unfold words
  rw [List.splitOnP_append_cons s t (by simp [hc]), List.filter_append]

theorem words_of_isWord (h : IsWord t) : words t = [t] := by
  unfold words
  rw [List.splitOnP_eq_singleton fun c hc => by simp [h.2 c hc]]
  simp [h.1]

theorem words_joined (h : ∀ n ∈ names, IsWord n) : words (joined ", " names) = names := by
  induction names with
  | nil => exact words_nil
  | cons n names ih =>
    have hrest : ∀ m ∈ names, IsWord m := fun m hm => h m (List.mem_cons_of_mem _ hm)
    have hn := words_of_isWord (h n List.mem_cons_self)
    cases names with
    | nil => simpa [joined] using hn
    | cons m names =>
      have hcomma : n ++ ofString ", " ++ joined ", " (m :: names) =
          n ++ .char ',' :: ([] ++ .char ' ' :: joined ", " (m :: names)) := by
        simp [ofString, ofChars]
      rw [joined, List.intercalate_cons_cons, ← joined, hcomma, words_append_cons (by decide),
        words_append_cons (by decide), ih hrest, hn, words_nil]
      rfl

theorem takeWhile_append_cons {c : CodePoint} (h : c ∉ s) :
    (s ++ c :: t).takeWhile (· != c) = s := by
  rw [List.takeWhile_append_of_pos fun d hd => by simpa using ne_of_mem_of_not_mem hd h]
  simp

/-- Names are read back up to the character that closes their list. -/
theorem words_takeWhile {closing : Char} (h : ∀ n ∈ names, IsWord n) (hgap : gap = [] ∨ gap = " ")
    (hclosing : (isNamePart closing || closing ∈ [',', ' ']) = false) :
    words ((joined ", " names ++ (gap ++ .char closing :: rest)).takeWhile
      (· != .char closing)) = names := by
  have hover : Over (fun c => isNamePart c || c ∈ [',', ' ']) (joined ", " names ++ gap) := by
    apply Over.append
    · apply Over.joined (by decide)
      exact fun n hn => (h n hn).2.mono fun c hc => by simp [hc]
    · rcases hgap with rfl | rfl <;> decide
  rw [← List.append_assoc, takeWhile_append_cons (hover.not_mem hclosing)]
  rcases hgap with rfl | rfl
  · rw [List.append_nil, words_joined h]
  · have hblank : joined ", " names ++ ofString " " = joined ", " names ++ .char ' ' :: [] := rfl
    rw [hblank, words_append_cons (by decide), words_joined h, words_nil, List.append_nil]

end Words

section Lines
variable {name gap rest : Text} {names : List Text}

theorem boundBy_eq_nil {line : Text} (h : ∀ c ∈ line.head?, c ≠ .char 'i' ∧ c ≠ .char 'e') :
    boundBy line = [] := by
  cases line with
  | nil =>
    simp [boundBy, Binder.all, Binder.names, Binder.opening, ofString, ofChars, List.dropPrefix?]
  | cons c line =>
    obtain ⟨hi, he⟩ := h c rfl
    simp [boundBy, Binder.all, Binder.names, Binder.opening, ofString, ofChars,
      List.dropPrefix?, hi, he]

theorem boundBy_nil : boundBy [] = [] := by
  apply boundBy_eq_nil
  intro c hc
  cases hc

theorem boundBy_opening (b : Binder) (rest : Text) :
    boundBy (b.opening ++ rest) = words (rest.takeWhile (· != .char b.closing)) := by
  cases b <;>
    simp [boundBy, Binder.all, Binder.names, Binder.opening, Binder.closing, ofString, ofChars,
      List.dropPrefix?]

theorem boundBy_line (b : Binder) (h : ∀ n ∈ names, IsWord n) (hgap : gap = [] ∨ gap = " ")
    (rest : Text) :
    boundBy (b.opening ++ (joined ", " names ++ (gap ++ .char b.closing :: rest))) = names := by
  rw [boundBy_opening, words_takeWhile h hgap]
  cases b <;> decide

theorem boundBy_name (b : Binder) (h : IsWord name) (hgap : gap = [] ∨ gap = " ") (rest : Text) :
    boundBy (b.opening ++ (name ++ (gap ++ .char b.closing :: rest))) = [name] := by
  have hnames : ∀ n ∈ [name], IsWord n := by simpa using h
  simpa [joined] using boundBy_line b hnames hgap rest

end Lines

namespace Code
variable {c : Code} {g k : Code → Code} {text : Text} {texts : List Text}
  {names : Text → List Text}

/-- What the lines of a module name, in their order. -/
def named (names : Text → List Text) (c : Code) : List Text :=
  c.lines.flatMap names

/-- Names nothing in a line that binds nothing. -/
def Bound (names : Text → List Text) : Prop :=
  ∀ line, boundBy line = [] → names line = []

theorem bound_boundBy : Bound boundBy :=
  fun _ h => h

theorem bound_names (b : Binder) : Bound b.names := by
  intro line h
  have hb : b ∈ Binder.all := by cases b <;> simp [Binder.all]
  exact List.flatMap_eq_nil_iff.mp h b hb

@[simp] theorem level_enter : (c.enter text).level = c.level + 1 :=
  rfl

theorem boundBy_indent {level : Int} (h : 1 ≤ level) : boundBy (indent level ++ text) = [] := by
  obtain ⟨n, hn⟩ : ∃ n, 2 * level.toNat = n + 1 := ⟨2 * level.toNat - 1, by omega⟩
  apply boundBy_eq_nil
  intro d hd
  rw [indent, hn, List.replicate_succ] at hd
  cases hd
  decide

theorem lines_line_top (h : c.level = 0) : (c.line text).lines = c.lines ++ [text] := by
  have hzero : indent c.level = [] := by rw [h]; rfl
  simp [line, hzero]

theorem named_line_top (h : c.level = 0) :
    (c.line text).named names = c.named names ++ names text := by
  simp [named, lines_line_top h]

theorem named_line_blank (hn : Bound names) (h : c.level = 0) :
    (c.line "").named names = c.named names := by
  have hnone : names "" = [] := hn [] boundBy_nil
  rw [named_line_top h, hnone, List.append_nil]

/-- Writes only inside of a block: the level is kept, and the lines that are added bind nothing. -/
def Inner (g : Code → Code) : Prop :=
  ∀ c : Code, 1 ≤ c.level → (g c).level = c.level ∧
    ∃ more, (g c).lines = c.lines ++ more ∧ ∀ line ∈ more, boundBy line = []

theorem Inner.named_eq (hg : Inner g) (hn : Bound names) (h : 1 ≤ c.level) :
    (g c).named names = c.named names := by
  obtain ⟨-, more, hlines, hmore⟩ := hg c h
  have hnone : more.flatMap names = [] :=
    List.flatMap_eq_nil_iff.mpr fun line hline => hn line (hmore line hline)
  rw [named, hlines, List.flatMap_append, hnone, List.append_nil, named]

theorem Inner.id : Inner fun c => c := by
  intro c _
  exact ⟨rfl, [], by simp⟩

theorem Inner.comp (hk : Inner k) (hg : Inner g) : Inner fun c => k (g c) := by
  intro c h
  obtain ⟨hl, more, hlines, hmore⟩ := hg c h
  obtain ⟨hl', more', hlines', hmore'⟩ := hk (g c) (hl ▸ h)
  refine ⟨hl'.trans hl, more ++ more', ?_, ?_⟩
  · rw [hlines', hlines, List.append_assoc]
  · intro line hline
    rcases List.mem_append.mp hline with hline | hline
    · exact hmore line hline
    · exact hmore' line hline

/-- A line in a block is indented, unless it is empty. -/
theorem lines_line_indented (text : Text) (h : 1 ≤ c.level) :
    ∃ added, (c.line text).lines = c.lines ++ [added] ∧ boundBy added = [] := by
  refine ⟨_, rfl, ?_⟩
  split
  · rename_i he
    rw [List.isEmpty_iff.mp he, boundBy_nil]
  · exact boundBy_indent h

theorem Inner.line (hg : Inner g) : Inner fun c => (g c).line text := by
  have hline : Inner (Code.line text) := by
    intro c h
    obtain ⟨added, hlines, hadded⟩ := lines_line_indented text h
    exact ⟨rfl, [added], hlines, by simpa using hadded⟩
  exact hline.comp hg

/-- A block in a block. -/
theorem Inner.block {opening closing : Text} (hg : Inner g) :
    Inner fun c => (g (c.enter opening)).leave closing := by
  intro c h
  have hlevel : 1 ≤ (c.enter opening).level := by
    rw [level_enter]
    omega
  obtain ⟨first, hfirst, hbound⟩ := lines_line_indented opening h
  obtain ⟨hl, more, hlines, hmore⟩ := hg (c.enter opening) hlevel
  have hleave : (g (c.enter opening)).level - 1 = c.level := by
    rw [hl, level_enter]
    omega
  have hlast : 1 ≤ ((g (c.enter opening)).level - 1) := hleave ▸ h
  obtain ⟨last, hclose, hbound'⟩ :=
    lines_line_indented (c := ⟨(g (c.enter opening)).lines, _⟩) closing hlast
  refine ⟨hleave, first :: (more ++ [last]), ?_, ?_⟩
  · calc ((g (c.enter opening)).leave closing).lines
        = (g (c.enter opening)).lines ++ [last] := hclose
      _ = (c.enter opening).lines ++ more ++ [last] := by rw [hlines]
      _ = c.lines ++ [first] ++ more ++ [last] := congrArg (· ++ more ++ [last]) hfirst
      _ = c.lines ++ first :: (more ++ [last]) := by simp
  · intro line hline
    simp only [List.mem_cons, List.mem_append, List.not_mem_nil, or_false] at hline
    rcases hline with rfl | hline | rfl
    · exact hbound
    · exact hmore line hline
    · exact hbound'

theorem Inner.lineAll (texts : List Text) : Inner (Code.lineAll texts) := by
  induction texts with
  | nil => exact Inner.id
  | cons t texts ih => exact ih.comp Inner.id.line

theorem named_lineAll_top (hn : Bound names) (h : c.level = 0)
    (ht : ∀ t ∈ texts, boundBy t = []) :
    (c.lineAll texts).level = 0 ∧ (c.lineAll texts).named names = c.named names := by
  induction texts generalizing c with
  | nil => exact ⟨h, rfl⟩
  | cons t texts ih =>
    obtain ⟨hl, hb⟩ := ih (c := c.line t) h fun u hu => ht u (List.mem_cons_of_mem _ hu)
    refine ⟨hl, ?_⟩
    calc (c.lineAll (t :: texts)).named names
        = (c.line t).named names := hb
      _ = c.named names ++ names t := named_line_top h
      _ = c.named names := by rw [hn t (ht t List.mem_cons_self), List.append_nil]

/-- A block at the top level binds what its first line binds. -/
theorem named_block_top (opening : Text) {closing : Text} (hclosing : boundBy closing = [])
    (hn : Bound names) (h : c.level = 0) (hg : Inner g) :
    ((g (c.enter opening)).leave closing).level = 0 ∧
      ((g (c.enter opening)).leave closing).named names = c.named names ++ names opening := by
  have hlevel : (c.enter opening).level = 1 := by
    rw [level_enter, h]
    rfl
  obtain ⟨hl, -⟩ := hg (c.enter opening) (by omega)
  have hleave : (g (c.enter opening)).level - 1 = 0 := by
    rw [hl, hlevel]
    rfl
  refine ⟨hleave, ?_⟩
  calc ((g (c.enter opening)).leave closing).named names
      = (g (c.enter opening)).named names ++ names closing := named_line_top hleave
    _ = (c.enter opening).named names := by
      rw [hn closing hclosing, List.append_nil, hg.named_eq hn (by omega)]
    _ = c.named names ++ names opening := named_line_top h

end Code

end ApiScaffold.Client
