import ApiScaffold.Proofs.Name.Cleaned
import ApiScaffold.Text.Replace

namespace ApiScaffold.Identifier
open Text
variable {fallback raw : Text}

section Stages

/-- What of a text an identifier may hold. -/
def kept (raw : Text) : Text :=
  raw.filter (·.is isPart)

/-- Sets an underscore before a leading digit. -/
def opened (word : Text) : Text :=
  if word.head?.any (·.is Char.isDigit) then "_" ++ word else word

/-- Cleaning with every exit to the fallback: for an empty text, for one of which nothing is left
once an array marker is cut off its end, and for a result that is no identifier after all. -/
def cleanInStages (fallback raw : Text) : Text :=
  if raw.isEmpty then fallback
  else
    let word := kept ((cutEnd? "[]" raw).getD raw)
    if word.isEmpty then fallback
    else if accepts (opened word) then opened word else fallback

theorem clean_of_kept_eq_nil (h : kept raw = []) : clean fallback raw = fallback := by
  have hnone : raw.filter (·.is isPart) = [] := h
  rw [clean, hnone]

theorem clean_of_kept_ne_nil (h : kept raw ≠ []) : clean fallback raw = opened (kept raw) := by
  unfold clean
  split
  · rename_i hnone
    exact absurd hnone h
  · rename_i p rest hkept
    have hword : kept raw = p :: rest := hkept
    rw [hword, opened]
    simp [ofString, ofChars]

/-- An array marker has nothing to keep. -/
theorem kept_cutEnd (raw : Text) : kept ((cutEnd? "[]" raw).getD raw) = kept raw := by
  unfold cutEnd?
  split
  · rename_i hmarker
    obtain ⟨bare, rfl⟩ := List.isSuffixOf_iff_suffix.mp hmarker
    simp [kept, ofString, ofChars, CodePoint.is, isPart]
  · rfl

/-- What is kept passes the check at the end. -/
theorem accepts_opened (h : kept raw ≠ []) : accepts (opened (kept raw)) = true := by
  have hname : IsName (clean "_" raw) := isName_clean (by decide)
  rw [clean_of_kept_ne_nil h] at hname
  exact accepts_of_isName hname

/-- Of the exits only that of a text with nothing to keep is ever taken. -/
theorem cleanInStages_eq_clean (fallback raw : Text) :
    cleanInStages fallback raw = clean fallback raw := by
  unfold cleanInStages
  split
  · rename_i hempty
    rw [List.isEmpty_iff.mp hempty]
    rfl
  · simp only [kept_cutEnd]
    by_cases hkept : kept raw = []
    · simp [hkept, clean_of_kept_eq_nil hkept]
    · simp [hkept, clean_of_kept_ne_nil hkept, accepts_opened hkept]

end Stages

section Fixed

theorem kept_of_over (h : Over isPart raw) : kept raw = raw :=
  List.filter_eq_self.mpr h

/-- An identifier is left as it is. -/
theorem clean_of_isName (h : IsName raw) : clean fallback raw = raw := by
  obtain ⟨p, hp, hstart⟩ := h.opens
  have hkept : kept raw = raw := kept_of_over h.parts
  have hne : kept raw ≠ [] := by
    intro hnil
    rw [hkept] at hnil
    simp [hnil] at hp
  have hdigit : p.is Char.isDigit = false := by
    cases p with
    | char c => exact isDigit_of_isStart hstart
    | surrogate n => rfl
  rw [clean_of_kept_ne_nil hne, hkept, opened, Option.mem_def.mp hp]
  simp [hdigit]

theorem clean_append_markers (fallback raw : Text) (n : Nat) :
    clean fallback (raw ++ (List.replicate n (ofString "[]")).flatten) = clean fallback raw := by
  apply clean_append
  intro p hp
  obtain ⟨marker, hmarker, hpm⟩ := List.mem_flatten.mp hp
  rw [List.eq_of_mem_replicate hmarker] at hpm
  simp only [ofString, ofChars, List.mem_map] at hpm
  obtain ⟨c, hc, rfl⟩ := hpm
  simp at hc
  rcases hc with rfl | rfl <;> rfl

/-- Cleaning gives an identifier: the characters that one may hold in their order, behind an
underscore if a digit is the first of them, or the fallback if there are none. So it changes no
identifier, and array markers behind a name do not matter. -/
theorem clean_spells (hf : IsName fallback) (raw : Text) :
    cleanInStages fallback raw = clean fallback raw ∧
      IsName (clean fallback raw) ∧
      ((∀ p ∈ raw, p.is isPart = false) → clean fallback raw = fallback) ∧
      ((∃ p ∈ raw, p.is isPart = true) → clean fallback raw = opened (kept raw)) ∧
      clean fallback (clean fallback raw) = clean fallback raw ∧
      (IsName raw → clean fallback raw = raw) ∧
      ∀ n, clean fallback (raw ++ (List.replicate n (ofString "[]")).flatten) =
        clean fallback raw := by
  have hname : IsName (clean fallback raw) := isName_clean hf
  refine ⟨cleanInStages_eq_clean fallback raw, hname, ?nothing, ?something, clean_of_isName hname,
    clean_of_isName, clean_append_markers fallback raw⟩
  case nothing =>
    intro h
    apply clean_of_kept_eq_nil
    exact List.filter_eq_nil_iff.mpr fun p hp => Bool.eq_false_iff.mp (h p hp)
  case something =>
    intro ⟨p, hp, hpart⟩
    apply clean_of_kept_ne_nil
    exact List.ne_nil_of_mem (List.mem_filter.mpr ⟨hp, hpart⟩)

/-- A digit in front, a character of another script and array markers, and no such thing at
all. -/
theorem clean_spells_digit : IsName "column1" ∧
    clean "column1" "2-\u00e4b[][]" = "_2b" ∧ clean "column1" "\u00e4[]" = "column1" := by
  have hf : IsName "column1" := by decide
  obtain ⟨-, -, -, hsomething, -⟩ := clean_spells hf "2-\u00e4b[][]"
  obtain ⟨-, -, hnothing, -⟩ := clean_spells hf "\u00e4[]"
  refine ⟨hf, ?_, hnothing (by decide)⟩
  rw [hsomething ⟨.char 'b', by decide, rfl⟩]
  rfl

end Fixed
end ApiScaffold.Identifier
