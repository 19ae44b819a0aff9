import ApiScaffold.Checked

namespace ApiScaffold.Checked
variable {α β : Type} {f : α → β} {a : α} {b : β} {x : Checked α} {g : Checked (α → β)}

theorem map_eq_valid (hx : x = valid a) : f <$> x = valid (f a) := by
  rw [hx]
  rfl

theorem seq_eq_valid (hg : g = valid f) (hx : x = valid a) : g <*> x = valid (f a) := by
  rw [hg, hx]
  rfl

theorem valid_of_map (h : f <$> x = valid b) : ∃ a, x = valid a ∧ f a = b := by
  cases x with
  | valid a => exact ⟨a, rfl, by injection h⟩
  | invalid issues => cases h

theorem valid_of_seq (h : g <*> x = valid b) : ∃ f a, g = valid f ∧ x = valid a ∧ f a = b := by
  cases g with
  | valid f =>
    cases x with
    | valid a => exact ⟨f, a, rfl, rfl, by injection h⟩
    | invalid issues => cases h
  | invalid issues => cases x <;> cases h

theorem valid_of_under {step : Step} (h : x.under step = valid a) : x = valid a := by
  cases x with
  | valid a => exact h
  | invalid issues => cases h

end ApiScaffold.Checked
