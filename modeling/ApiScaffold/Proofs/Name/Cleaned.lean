import ApiScaffold.Proofs.Name.Letters
import Mathlib.Data.List.Basic

namespace ApiScaffold
open Text

namespace Identifier
variable {fallback other raw s t : Text}

/-- A name that is accepted and has no line feed behind it. -/
structure IsName (t : Text) : Prop where
  parts : Over isPart t
  opens : ∃ p ∈ t.head?, p.is isStart = true

instance : Decidable (IsName t) :=
  decidable_of_iff (Over isPart t ∧ ∃ p ∈ t.head?, p.is isStart = true)
    ⟨fun h => ⟨h.1, h.2⟩, fun h => ⟨h.parts, h.opens⟩⟩

/-- A text that a character of the first class opens and that goes on in the second. -/
def OpensOver (start part : Char → Bool) : Text → Prop
  | [] => False
  | p :: rest => p.is start = true ∧ Over part rest

/-- A word is taken with a line feed behind it, too. -/
theorem isWord_iff {start part : Char → Bool} :
    isWord start part t = true ↔
      OpensOver start part t ∨ ∃ word, OpensOver start part word ∧ t = word ++ [.char '\n'] := by
  cases t with
  | nil => simp [isWord, OpensOver]
  | cons p rest =>
    have hall (s : Text) : s.all (·.is part) = true ↔ Over part s := List.all_eq_true
    simp only [isWord, OpensOver, Bool.and_eq_true, Bool.or_eq_true, beq_iff_eq, hall, and_or_left]
    refine or_congr_right ?_
    constructor
    · rintro ⟨hp, hlast, hrest⟩
      refine ⟨p :: rest.dropLast, ⟨hp, hrest⟩, ?_⟩
      rw [List.cons_append, List.dropLast_append_getLast? _ hlast]
    · rintro ⟨word, hword, he⟩
      cases word with
      | nil => exact hword.elim
      | cons q word =>
        obtain ⟨rfl, rfl⟩ := List.cons.inj he
        simpa using hword

theorem isPart_of_isStart {c : Char} (h : isStart c = true) : isPart c = true := by
  simp only [isStart, isPart, Char.isAlphanum, Bool.or_eq_true] at h ⊢
  exact h.imp_left .inl

theorem isDigit_of_isStart {c : Char} (h : isStart c = true) : c.isDigit = false := by
  unfold isStart Char.isAlpha Char.isUpper Char.isLower at h
  unfold Char.isDigit
  simp only [Bool.or_eq_true, Bool.and_eq_true, decide_eq_true_eq, beq_iff_eq,
    UInt32.le_iff_toNat_le] at h ⊢
  rcases h with h | rfl
  · simp at h ⊢
    omega
  · decide

theorem isName_iff_opensOver : IsName t ↔ OpensOver isStart isPart t := by
  cases t with
  | nil => exact iff_of_false (fun h => by obtain ⟨_, hp, -⟩ := h.opens; cases hp) id
  | cons p rest =>
    constructor
    · intro h
      obtain ⟨q, hq, hs⟩ := h.opens
      cases hq
      exact ⟨hs, fun c hc => h.parts c (List.mem_cons_of_mem _ hc)⟩
    · rintro ⟨hs, hrest⟩
      have hp : p.is isPart = true := by
        cases p with
        | char c => exact isPart_of_isStart hs
        | surrogate n => cases hs
      exact ⟨List.forall_mem_cons.mpr ⟨hp, hrest⟩, p, rfl, hs⟩

theorem accepts_iff :
    accepts t = true ↔ IsName t ∨ ∃ name, IsName name ∧ t = name ++ [.char '\n'] := by
  simp only [isName_iff_opensOver, accepts, isWord_iff]

theorem accepts_of_isName (h : IsName t) : accepts t = true :=
  accepts_iff.mpr (.inl h)

theorem IsName.append (hs : IsName s) (ht : Over isPart t) : IsName (s ++ t) := by
  obtain ⟨p, hp, hstart⟩ := hs.opens
  exact ⟨hs.parts.append ht, p, List.mem_head?_append_of_mem_head? hp, hstart⟩

/-- An underscore opens a name before whatever a name may hold. -/
theorem isName_underscore (h : Over isPart t) : IsName ("_" ++ t) :=
  IsName.append (by decide) h

theorem is_isStart {p : CodePoint} (hp : p.is isPart = true) (hd : p.is Char.isDigit = false) :
    p.is isStart = true := by
  cases p with
  | surrogate n => cases hp
  | char c =>
    simp only [CodePoint.is] at hp hd ⊢
    simpa [isPart, isStart, Char.isAlphanum, hd] using hp

theorem isName_clean (hf : IsName fallback) : IsName (clean fallback raw) := by
  refine ⟨over_clean hf.parts, ?_⟩
  unfold clean
  split
  · exact hf.opens
  · rename_i p rest hr
    split
    · exact ⟨.char '_', rfl, by decide⟩
    · rename_i hd
      have hp : p ∈ raw.filter (·.is isPart) := hr ▸ List.mem_cons_self
      exact ⟨p, rfl, is_isStart (List.mem_filter.mp hp).2 (Bool.eq_false_iff.mpr hd)⟩

theorem isName_ofTable (name : Text) : IsName (ofTable name) :=
  isName_clean (by decide)

theorem isName_ofFunction (name : Text) : IsName (ofFunction name) :=
  isName_clean (by decide)

/-- What no identifier holds may stand behind a name without changing what is left of it. -/
theorem clean_append (h : ∀ p ∈ t, p.is isPart = false) :
    clean fallback (raw ++ t) = clean fallback raw := by
  have ht : t.filter (·.is isPart) = [] :=
    List.filter_eq_nil_iff.mpr fun p hp => Bool.eq_false_iff.mp (h p hp)
  simp only [clean, List.filter_append, ht, List.append_nil]

/-- The fallback decides only where nothing else is left. -/
theorem clean_eq_clean_iff :
    clean fallback raw = clean other raw ↔ (∃ p ∈ raw, p.is isPart = true) ∨ fallback = other := by
  unfold clean
  split
  · rename_i hn
    have hno : ¬∃ p ∈ raw, p.is isPart = true := by
      rintro ⟨p, hp, hpart⟩
      exact List.filter_eq_nil_iff.mp hn p hp hpart
    simp only [hno, false_or]
  · rename_i p rest hr
    have hp := List.mem_filter.mp (hr ▸ List.mem_cons_self : p ∈ raw.filter (·.is isPart))
    exact iff_of_true rfl (.inl ⟨p, hp⟩)

theorem clean_eq_fallback (h : ¬ ∃ p ∈ raw, p.is isPart = true) : clean fallback raw = fallback := by
  have hnone : raw.filter (·.is isPart) = [] :=
    List.filter_eq_nil_iff.mpr fun p hp hpart => h ⟨p, hp, hpart⟩
  rw [clean, hnone]

/-- Without a fallback nothing stands for a name of which nothing is left. -/
theorem clean_eq_ite :
    clean fallback raw = if clean "" raw = [] then fallback else clean "" raw := by
  unfold clean
  split
  · rfl
  · split <;> rfl

end Identifier

theorem Name.isName_numbered {name : Text} (h : Identifier.IsName name) (k : Nat) :
    Identifier.IsName (numbered name k) := by
  have hk := (over_toString k).mono fun _ hd => Identifier.isPart_of_isDigit hd
  exact (h.append (by decide)).append hk

end ApiScaffold
