import ApiScaffold.Client.Module
import ApiScaffold.Proofs.Name.Letters
import ApiScaffold.Proofs.Text.Pieces
import Mathlib.Data.List.Basic

namespace ApiScaffold.Client
open Text

/-- The module that a line exports again, by its name beside the index. -/
def exportedBy (line : Text) : Option Text :=
  (line.dropPrefix? (Text.ofString "export * from './")).bind (cutEnd? (Text.ofString "';"))

/-- The modules that an index exports again, in their order. -/
def reexports (index : Text) : List Text :=
  (pieces (.char '\n') index).filterMap exportedBy

/-- The line that exports a module, once its name needs no escape. -/
def exportLine (name : Text) : Text :=
  Text.ofString "export * from './" ++ name ++ Text.ofString "';"

variable {name : Text} {names : List Text}

theorem exportedBy_exportLine (name : Text) : exportedBy (exportLine name) = some name := by
  rw [exportedBy, exportLine, List.append_assoc, List.dropPrefix?_append_of_beq _ (beq_self_eq_true _)]
  simp [cutEnd?]

theorem escapeChar_of_isAlphanum {c : Char} (h : c.isAlphanum = true) : escapeChar c = [c] := by
  unfold escapeChar
  split
  case h_7 => rfl
  -- The characters that are escaped are no letters and no digits.
  all_goals exact absurd h (by decide)

theorem flatMapChars_escapeChar (h : Over Char.isAlphanum name) :
    flatMapChars escapeChar name = name := by
  induction name with
  | nil => rfl
  | cons p rest ih =>
    have hrest : Over Char.isAlphanum rest := fun c hc => h c (List.mem_cons_of_mem _ hc)
    have hp := h p List.mem_cons_self
    cases p with
    | surrogate n => cases hp
    | char c =>
      change ofChars (escapeChar c) ++ flatMapChars escapeChar rest = _
      rw [escapeChar_of_isAlphanum hp, ih hrest]
      rfl

theorem literal_module (h : Over Char.isAlphanum name) :
    literal ("./" ++ name) = Text.ofString "'./" ++ name ++ Text.ofString "'" := by
  have hplace : flatMapChars escapeChar (Text.ofString "./" ++ name) =
      Text.ofString "./" ++ flatMapChars escapeChar name := rfl
  rw [literal, hplace, flatMapChars_escapeChar h]
  rfl

theorem indexModule_eq (h : ∀ n ∈ names, Over Char.isAlphanum n) (hne : names ≠ []) :
    indexModule names = joined "\n" (names.map exportLine) := by
  have hlines : (names.map fun n => Text.ofString "export * from " ++ literal ("./" ++ n) ++
      Text.ofString ";") = names.map exportLine := by
    apply List.map_congr_left
    intro n hn
    rw [literal_module (h n hn), exportLine]
    simp [ofString, ofChars]
  rw [indexModule, if_neg (by simpa using hne)]
  exact congrArg (joined "\n") hlines

theorem lineFeed_not_mem_exportLine (h : Over Char.isAlphanum name) :
    .char '\n' ∉ exportLine name := by
  have hover : Over (fun c => c != '\n') (exportLine name) := by
    apply Over.append
    · apply Over.append (by decide)
      exact h.mono fun c hc => by
        rw [bne_iff_ne]
        rintro rfl
        cases hc
    · decide
  exact hover.not_mem (by decide)

/-- The index exports just the modules it is made of, each where it stands. -/
theorem reexports_indexModule (h : ∀ n ∈ names, Over Char.isAlphanum n) :
    reexports (indexModule names ++ "\n") = names := by
  have hlast : [([] : Text)].filterMap exportedBy = [] := by decide
  have hend : reexports (indexModule names ++ "\n") = reexports (indexModule names) := by
    have hcut : pieces (.char '\n') (indexModule names ++ Text.ofString "\n") =
        pieces (.char '\n') (indexModule names) ++ [[]] := pieces_append_cons _ _ []
    rw [reexports, hcut, List.filterMap_append, hlast, List.append_nil]
    rfl
  cases names with
  | nil => decide
  | cons n rest =>
    have hlines : ∀ l ∈ (n :: rest).map exportLine, .char '\n' ∉ l := by
      intro l hl
      obtain ⟨m, hm, rfl⟩ := List.mem_map.mp hl
      exact lineFeed_not_mem_exportLine (h m hm)
    have hread : exportedBy ∘ exportLine = some := funext exportedBy_exportLine
    calc reexports (indexModule (n :: rest) ++ "\n")
        = (pieces (.char '\n') (joined "\n" ((n :: rest).map exportLine))).filterMap
            exportedBy := by rw [hend, reexports, indexModule_eq h (by simp)]
      _ = ((n :: rest).map exportLine).filterMap exportedBy := by
          rw [joined, show Text.ofString "\n" = [.char '\n'] from rfl,
            pieces_joined hlines (by simp)]
      _ = n :: rest := by rw [List.filterMap_map, hread, List.filterMap_some]

end ApiScaffold.Client
