import ApiScaffold.Spec.Depth

namespace ApiScaffold.DataType

mutual

/-- How many arrays and objects of a type stand in each other at most. -/
def depth : DataType → Nat
  | primitive _ _ | reference _ => 0
  | array items => items.depth + 1
  | object properties => deepest properties + 1

def deepest : List (Text × DataType) → Nat
  | [] => 0
  | (_, t) :: rest => max t.depth (deepest rest)

end

/-- The most levels that a type at a place takes up beside those of its depth. -/
def Surrounding.margin : Surrounding → Nat
  | declared => 3
  | alone | inObject => 2
  | inArray => 1

variable {place : Surrounding} {above levels : Nat} {kind : Kind}

theorem one_le_margin (place : Surrounding) : 1 ≤ place.margin := by
  cases place <;> decide

theorem one_le_levels (place : Surrounding) (kind : Kind) : 1 ≤ place.levels kind := by
  cases place <;> cases kind <;> decide

/-- What a place opens beside the depth is not opened again further in. -/
theorem levels_add_margin_le (place : Surrounding) (kind : Kind) :
    place.levels kind + (place.inside kind).margin ≤ place.margin + 1 := by
  cases place <;> cases kind <;> decide

theorem below?_eq_some_iff :
    below? place above kind = some levels ↔
      above + place.levels kind = levels ∧ levels ≤ levelLimit := by
  simp only [below?]
  split
  · rename_i hle
    rw [Option.some.injEq]
    exact ⟨fun h => ⟨h, h ▸ hle⟩, And.left⟩
  · rename_i hlt
    refine iff_of_false (by simp) ?_
    rintro ⟨rfl, hle⟩
    exact hlt hle

section Sufficient

mutual

theorem isShallow_of_le (place : Surrounding) (above : Nat) (t : DataType)
    (h : above + t.depth + place.margin ≤ levelLimit) : t.isShallow place above = true := by
  have hlevels := levels_add_margin_le place t.kind
  have hmargin := one_le_margin (place.inside t.kind)
  have hb : below? place above t.kind = some (above + place.levels t.kind) :=
    below?_eq_some_iff.mpr ⟨rfl, by omega⟩
  unfold isShallow
  rw [hb]
  cases t with
  | primitive name format => rfl
  | reference name => rfl
  | array items =>
    have hroom := levels_add_margin_le place .array
    rw [depth] at h
    exact isShallow_of_le (place.inside .array) (above + place.levels .array) items (by omega)
  | object properties =>
    have hroom := levels_add_margin_le place .object
    rw [depth] at h
    exact areShallow_of_le (place.inside .object) (above + place.levels .object) properties
      (by omega)

theorem areShallow_of_le (place : Surrounding) (above : Nat) (properties : List (Text × DataType))
    (h : above + deepest properties + place.margin ≤ levelLimit) :
    areShallow place above properties = true := by
  match properties with
  | [] => rfl
  | (name, t) :: rest =>
    rw [deepest] at h
    rw [areShallow, isShallow_of_le place above t (by omega),
      areShallow_of_le place above rest (by omega)]
    rfl

end

end Sufficient

section Necessary

mutual

/-- Each array and each object takes up a level. -/
theorem depth_le_of_isShallow (place : Surrounding) (above : Nat) (t : DataType)
    (h : t.isShallow place above = true) : above + t.depth ≤ levelLimit := by
  unfold isShallow at h
  cases hb : below? place above t.kind with
  | none =>
    rw [hb] at h
    cases h
  | some levels =>
    obtain ⟨hlevels, hle⟩ := below?_eq_some_iff.mp hb
    have hone := one_le_levels place t.kind
    rw [hb] at h
    cases t with
    | primitive name format =>
      rw [depth]
      omega
    | reference name =>
      rw [depth]
      omega
    | array items =>
      have hitems := depth_le_of_isShallow _ levels items h
      rw [depth]
      omega
    | object properties =>
      have hproperties := deepest_le_of_areShallow _ levels properties hle h
      rw [depth]
      omega

theorem deepest_le_of_areShallow (place : Surrounding) (above : Nat)
    (properties : List (Text × DataType)) (habove : above ≤ levelLimit)
    (h : areShallow place above properties = true) : above + deepest properties ≤ levelLimit := by
  match properties with
  | [] => exact habove
  | (name, t) :: rest =>
    rw [areShallow, Bool.and_eq_true] at h
    have ht := depth_le_of_isShallow place above t h.1
    have hrest := deepest_le_of_areShallow place above rest habove h.2
    rw [deepest]
    omega

end

end Necessary

end ApiScaffold.DataType
