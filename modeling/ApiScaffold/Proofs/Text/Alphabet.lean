import ApiScaffold.Text.Basic

namespace ApiScaffold.Text
variable {p q : Char → Bool} {s t between : Text} {ts : List Text}

/-- Every code point of the text is a character of the class; no half of a pair is. -/
def Over (p : Char → Bool) (t : Text) : Prop :=
  ∀ c ∈ t, c.is p = true

instance : Decidable (Over p t) :=
  inferInstanceAs (Decidable (∀ c ∈ t, c.is p = true))

theorem Over.mono (h : Over p t) (hpq : ∀ c, p c = true → q c = true) : Over q t := by
  intro c hc
  have hp := h c hc
  cases c with
  | char c => exact hpq c hp
  | surrogate n => cases hp

theorem ofString_append (s t : String) : ofString (s ++ t) = ofString s ++ ofString t := by
  simp [ofString, ofChars]

theorem over_nil : Over p [] := by
  intro c hc
  cases hc

theorem over_append : Over p (s ++ t) ↔ Over p s ∧ Over p t := by
  simp only [Over, List.mem_append]
  constructor
  · intro h
    exact ⟨fun c hc => h c (.inl hc), fun c hc => h c (.inr hc)⟩
  · rintro ⟨hs, ht⟩ c (hc | hc)
    · exact hs c hc
    · exact ht c hc

theorem Over.append (hs : Over p s) (ht : Over p t) : Over p (s ++ t) :=
  over_append.mpr ⟨hs, ht⟩

theorem Over.joined (hb : Over p between) (h : ∀ t ∈ ts, Over p t) :
    Over p (joined between ts) := by
  induction ts with
  | nil => exact over_nil
  | cons t ts ih =>
    have htail : ∀ u ∈ ts, Over p u := fun u hu => h u (List.mem_cons_of_mem _ hu)
    cases ts with
    | nil => simpa [Text.joined] using h t List.mem_cons_self
    | cons u us =>
      rw [Text.joined, List.intercalate_cons_cons]
      exact ((h t List.mem_cons_self).append hb).append (ih htail)

/-- A text over a class holds no character outside of it. -/
theorem Over.not_mem {c : Char} (h : Over p t) (hc : p c = false) : .char c ∉ t := by
  intro hm
  have := h _ hm
  simp [CodePoint.is, hc] at this

theorem over_toString (n : Nat) : Over Char.isDigit (toString n) := by
  intro c hc
  obtain ⟨d, hd, rfl⟩ := List.mem_map.mp hc
  rw [Nat.toString_eq_ofList_toDigits, String.toList_ofList] at hd
  exact Nat.isDigit_of_mem_toDigits (by decide) (by decide) hd

end ApiScaffold.Text
