import ApiScaffold.Proofs.Name.Letters
import ApiScaffold.Proofs.Text.Lower
import Mathlib.Data.List.Nodup
import Mathlib.Data.List.Range

namespace ApiScaffold.Name
variable {mode : CaseMode} {taken : List Text} {name : Text} {tries k : Nat}

/-- The numbers of a name can be read back. -/
theorem numbered_injective (name : Text) : Function.Injective (numbered name) := by
  intro j k h
  have hsuffix : Text.ofString (toString j) = Text.ofString (toString k) :=
    List.append_cancel_left h
  have hdigits : Nat.toDigits 10 j = Nat.toDigits 10 k := by
    have hchars := congrArg (List.map CodePoint.charOrNul) hsuffix
    simpa [Text.ofString, Text.ofChars, CodePoint.charOrNul, Function.comp_def,
      Nat.toString_eq_repr, Nat.toList_repr] using hchars
  simpa using congrArg (Nat.ofDigitChars 10 · 0) hdigits

theorem numbered_ne (name : Text) (k : Nat) : numbered name k ≠ name := by
  intro h
  have hlength := congrArg List.length h
  simp [numbered, Text.ofString, Text.ofChars] at hlength

/-- Lowering a numbered name lowers the name. -/
theorem lower_numbered (name : Text) (k : Nat) :
    Text.lower (numbered name k) = numbered (Text.lower name) k := by
  have hdigits := Text.over_toString k
  have hascii : Text.Over Text.isAscii (toString k) :=
    hdigits.mono fun _ hd => Text.isAscii_of_isPart (Identifier.isPart_of_isDigit hd)
  have hsame : (Text.ofString (toString k)).map (·.map Text.lowerLetter) =
      Text.ofString (toString k) := by
    rw [List.map_congr_left (g := id), List.map_id]
    intro p hp
    have hdigit := hdigits p hp
    cases p with
    | surrogate n => rfl
    | char c => exact congrArg CodePoint.char (Text.lowerLetter_of_isDigit hdigit)
  have hseam (t : Text) : numbered t k = t ++ .char '_' :: Text.ofString (toString k) := by
    simp [numbered, Text.ofString, Text.ofChars]
  rw [hseam, hseam, Text.lower, Text.lowerAfter_append_underscore hascii, hsame, Text.lower]

/-- The candidates for a name stay apart in the case mode. -/
theorem key_numbered_injective (mode : CaseMode) (name : Text) :
    Function.Injective fun k => mode.key (numbered name k) := by
  cases mode with
  | exact => exact numbered_injective name
  | folded =>
    intro j k hkeys
    have hlower : Text.lower (numbered name j) = Text.lower (numbered name k) := hkeys
    rw [lower_numbered, lower_numbered] at hlower
    exact numbered_injective _ hlower

/-- From any number on there are more candidates than the taken names can rule out. -/
theorem exists_free (mode : CaseMode) (taken : List Text) (name : Text) (k : Nat) :
    ∃ j, k ≤ j ∧ j ≤ k + taken.length ∧ mode.key (numbered name j) ∉ taken := by
  by_contra hnone
  have hsub : (List.range' k (taken.length + 1)).map (fun j => mode.key (numbered name j)) ⊆
      taken := by
    intro c hc
    obtain ⟨j, hj, rfl⟩ := List.mem_map.mp hc
    obtain ⟨hk, hlt⟩ := List.mem_range'_1.mp hj
    by_contra hfree
    exact hnone ⟨j, hk, by omega, hfree⟩
  have hnodup : ((List.range' k (taken.length + 1)).map
      fun j => mode.key (numbered name j)).Nodup :=
    List.Nodup.map (key_numbered_injective mode name) (List.nodup_range' 1)
  have hlength := hnodup.length_le_of_subset hsub
  rw [List.length_map, List.length_range'] at hlength
  omega

/-- The search ends at the first free candidate if there is one within the tries. -/
theorem firstFree_spec (h : ∃ j, k ≤ j ∧ j ≤ k + tries ∧ mode.key (numbered name j) ∉ taken) :
    ∃ j, k ≤ j ∧ firstFree mode taken name tries k = numbered name j ∧
      mode.key (numbered name j) ∉ taken ∧
      ∀ i, k ≤ i → i < j → mode.key (numbered name i) ∈ taken := by
  obtain ⟨free, hk, hle, hfree⟩ := h
  induction tries generalizing k with
  | zero =>
    obtain rfl : free = k := by omega
    exact ⟨free, hk, rfl, hfree, fun i hi hlt => by omega⟩
  | succ tries ih =>
    rw [firstFree]
    split
    · rename_i htaken
      have hne : free ≠ k := by
        rintro rfl
        exact hfree htaken
      obtain ⟨j, hj, he, hfree', hbefore⟩ := ih (k := k + 1) (by omega) (by omega)
      refine ⟨j, by omega, he, hfree', ?_⟩
      intro i hi hlt
      rcases Nat.eq_or_lt_of_le hi with rfl | hi
      · exact htaken
      · exact hbefore i hi hlt
    · rename_i hfree'
      exact ⟨k, Nat.le_refl k, rfl, hfree', fun i hi hlt => by omega⟩

/-- A chosen name is free. -/
theorem key_unique_not_mem (mode : CaseMode) (taken : List Text) (name : Text) :
    mode.key (unique mode taken name) ∉ taken := by
  unfold unique
  split
  · obtain ⟨j, -, he, hfree, -⟩ := firstFree_spec (exists_free mode taken name 2)
    rwa [he]
  · rename_i hfree
    exact hfree

theorem unique_eq_self_iff : unique mode taken name = name ↔ mode.key name ∉ taken := by
  unfold unique
  split
  · rename_i htaken
    obtain ⟨j, hj⟩ : ∃ j, firstFree mode taken name taken.length 2 = numbered name j :=
      firstFree_eq_numbered _ _
    rw [hj]
    exact iff_of_false (numbered_ne name j) (not_not_intro htaken)
  · rename_i hfree
    exact iff_of_true rfl hfree

/-- Claimed names are told apart in the case mode, from each other and from the taken ones. -/
theorem nodup_claimAll (mode : CaseMode) (taken names : List Text) :
    ((claimAll mode taken names).map mode.key).Nodup ∧
      ∀ n ∈ claimAll mode taken names, mode.key n ∉ taken := by
  induction names generalizing taken with
  | nil => simp [claimAll]
  | cons name rest ih =>
    have hfree : mode.key (unique mode taken name) ∉ taken := key_unique_not_mem mode taken name
    obtain ⟨hnodup, hrest⟩ := ih (mode.key (unique mode taken name) :: taken)
    simp only [List.mem_cons, not_or] at hrest
    constructor
    · have hhead : mode.key (unique mode taken name) ∉
          (claimAll mode (mode.key (unique mode taken name) :: taken) rest).map mode.key := by
        intro hm
        obtain ⟨n, hn, he⟩ := List.mem_map.mp hm
        exact (hrest n hn).1 he
      exact List.nodup_cons.mpr ⟨hhead, hnodup⟩
    · intro n hn
      rcases List.mem_cons.mp hn with rfl | hn
      · exact hfree
      · exact (hrest n hn).2

/-- Each name is chosen apart from those that were claimed before it. -/
theorem getElem?_claimAll {names : List Text} {i : Nat} :
    (claimAll mode taken names)[i]? = names[i]?.map
      (unique mode ((((claimAll mode taken names).take i).map mode.key).reverse ++ taken)) := by
  induction names generalizing taken i with
  | nil => rfl
  | cons name rest ih =>
    cases i with
    | zero => rfl
    | succ i =>
      rw [claimAll, List.getElem?_cons_succ, List.getElem?_cons_succ, ih, List.take_succ_cons,
        List.map_cons, List.reverse_cons, List.append_assoc]
      rfl

end ApiScaffold.Name
