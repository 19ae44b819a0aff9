import ApiScaffold.Text.Basic

namespace ApiScaffold.Client

/-- A literal text and the placeholder behind it; the last piece of a path has none. -/
structure Segment where
  text : Text
  placeholder : Option Text
  deriving DecidableEq, Repr

namespace Segment

/-- The name up to the closing brace, if it is not empty and holds no brace, and what follows. -/
def placeholder? (s : Text) : Option (Text × Text) :=
  let name := s.takeWhile fun p => p != .char '{' && p != .char '}'
  match name, s.drop name.length with
  | _ :: _, .char '}' :: rest => some (name, rest)
  | _, _ => none

theorem length_of_placeholder? {s name rest : Text} (h : placeholder? s = some (name, rest)) :
    rest.length < s.length := by
  simp only [placeholder?] at h
  split at h
  · rename_i _ _ tail _ hd
    obtain ⟨-, rfl⟩ := Prod.mk.inj (Option.some.inj h)
    have := congrArg List.length hd
    simp only [List.length_drop, List.length_cons] at this
    omega
  · contradiction

/-- Cuts a path at its placeholders; `before` is the text since the last one, backwards. -/
def cut (before s : Text) : List Segment :=
  match s with
  | [] => [⟨before.reverse, none⟩]
  | p :: rest =>
    if p = .char '{' then
      match _h : placeholder? rest with
      | some (name, tail) =>
        ⟨before.reverse, some name⟩ :: cut [] tail
      | none => cut (p :: before) rest
    else cut (p :: before) rest
termination_by s.length
decreasing_by
  · have := length_of_placeholder? ‹_›
    simp only [List.length_cons]
    omega
  · simp
  · simp

end Segment

/-- `/pets/{id}` has the segments `/pets/` with the placeholder `id` and an empty last one. -/
def segments (path : Text) : List Segment :=
  Segment.cut [] path

end ApiScaffold.Client
