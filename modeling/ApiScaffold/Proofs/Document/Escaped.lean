import ApiScaffold.Proofs.Document.Pointer
import ApiScaffold.Proofs.Text.Pieces

namespace ApiScaffold

namespace Text
variable {α : Type} [DecidableEq α] {a b x : α}

theorem replacePair_cons_of_ne (h : x ≠ a) (new s : List α) :
    replacePair a b new (x :: s) = x :: replacePair a b new s :=
  replacePair_cons (fun hx => absurd hx h) new

end Text

namespace Tree

/-- The keys of a path lead from map to map to a node. -/
inductive Leads : Tree → List Text → Tree → Prop
  | here (t : Tree) : Leads t [] t
  | down {t v u : Tree} {entries : Entries} {key : Text} {rest : List Text}
      (hmap : t.map? = some entries) (hentry : find? (.str key) entries = some v)
      (h : Leads v rest u) : Leads t (key :: rest) u

/-- A path leaves the maps, or it names a key that is absent. -/
inductive Strays : Tree → List Text → Prop
  | leaves {t : Tree} {key : Text} {rest : List Text} (hmap : t.map? = none) :
      Strays t (key :: rest)
  | absent {t : Tree} {entries : Entries} {key : Text} {rest : List Text}
      (hmap : t.map? = some entries) (hkey : ∀ e ∈ entries, e.1 ≠ .str key) :
      Strays t (key :: rest)
  | down {t v : Tree} {entries : Entries} {key : Text} {rest : List Text}
      (hmap : t.map? = some entries) (hentry : find? (.str key) entries = some v)
      (h : Strays v rest) : Strays t (key :: rest)

end Tree

namespace Document

section Paths
variable {t u v : Tree} {entries : Tree.Entries} {key : Text} {path rest : List Text}

theorem descend_cons (hmap : t.map? = some entries) :
    descend t (key :: rest) = (Tree.find? (.str key) entries).bind (descend · rest) := by
  rw [descend, Tree.get?, hmap, Option.bind_some]
  cases Tree.find? (.str key) entries <;> rfl

theorem descend_cons_of_no_map (hmap : t.map? = none) : descend t (key :: rest) = none := by
  rw [descend, Tree.get?, hmap]
  rfl

theorem descend_eq_some_iff : descend t path = some u ↔ t.Leads path u := by
  constructor
  · intro h
    induction path generalizing t with
    | nil =>
      obtain rfl := Option.some.inj h
      exact .here t
    | cons key rest ih =>
      cases hmap : t.map? with
      | none =>
        rw [descend_cons_of_no_map hmap] at h
        cases h
      | some entries =>
        rw [descend_cons hmap] at h
        obtain ⟨v, hentry, h⟩ := Option.bind_eq_some_iff.mp h
        exact .down hmap hentry (ih h)
  · intro h
    induction h with
    | here t => rfl
    | down hmap hentry _ ih => rw [descend_cons hmap, hentry, Option.bind_some, ih]

/-- Going down finds nothing only where the path does not lead on. -/
theorem descend_eq_none_iff : descend t path = none ↔ t.Strays path := by
  constructor
  · intro h
    induction path generalizing t with
    | nil => cases h
    | cons key rest ih =>
      cases hmap : t.map? with
      | none => exact .leaves hmap
      | some entries =>
        rw [descend_cons hmap] at h
        cases hentry : Tree.find? (.str key) entries with
        | none => exact .absent hmap (Tree.find?_str_eq_none_iff.mp hentry)
        | some v =>
          rw [hentry, Option.bind_some] at h
          exact .down hmap hentry (ih h)
  · intro h
    induction h with
    | leaves hmap => exact descend_cons_of_no_map hmap
    | absent hmap hkey =>
      rw [descend_cons hmap, Tree.find?_str_eq_none_iff.mpr hkey, Option.bind_none]
    | down hmap hentry _ ih => rw [descend_cons hmap, hentry, Option.bind_some, ih]

end Paths

section Spelling

/-- A character of a key as a reference spells it, where two have a meaning of their own. -/
def escapePoint (p : CodePoint) : Text :=
  if p = .char '~' then "~0" else if p = .char '/' then "~1" else [p]

def escape (key : Text) : Text :=
  key.flatMap escapePoint

/-- The reference that goes down by the keys of a path. -/
def referenceTo (path : List Text) : Text :=
  "#/" ++ Text.joined "/" (path.map escape)

theorem escapePoint_cases (p : CodePoint) :
    (p = .char '~' ∧ escapePoint p = [.char '~', .char '0']) ∨
      (p = .char '/' ∧ escapePoint p = [.char '~', .char '1']) ∨
      (p ≠ .char '~' ∧ p ≠ .char '/' ∧ escapePoint p = [p]) := by
  by_cases htilde : p = .char '~'
  · exact .inl ⟨htilde, if_pos htilde⟩
  · by_cases hslash : p = .char '/'
    · exact .inr (.inl ⟨hslash, by rw [escapePoint, if_neg htilde, if_pos hslash]; rfl⟩)
    · exact .inr (.inr ⟨htilde, hslash, by rw [escapePoint, if_neg htilde, if_neg hslash]⟩)

theorem slash_not_mem_escape (key : Text) : .char '/' ∉ escape key := by
  intro hm
  obtain ⟨p, -, hp⟩ := List.mem_flatMap.mp hm
  rcases escapePoint_cases p with ⟨-, he⟩ | ⟨-, he⟩ | ⟨-, hslash, he⟩
  · simp [he] at hp
  · simp [he] at hp
  · rw [he] at hp
    exact hslash (List.mem_singleton.mp hp).symm

theorem unescape_cons_of_ne {p : CodePoint} (h : p ≠ .char '~') (rest : Text) :
    unescape (p :: rest) = p :: unescape rest := by
  rw [unescape, Text.replacePair_cons_of_ne h, Text.replacePair_cons_of_ne h]
  rfl

/-- The first pass leaves the escape of a tilde alone, whatever digit stands behind it. -/
theorem unescape_tilde_zero (rest : Text) :
    unescape (.char '~' :: .char '0' :: rest) = .char '~' :: unescape rest := by
  have hfirst : Text.replacePair (.char '~') (.char '1') "/" (.char '~' :: .char '0' :: rest) =
      .char '~' :: .char '0' :: Text.replacePair (.char '~') (.char '1') "/" rest := by
    rw [Text.replacePair, if_neg (by decide), Text.replacePair_cons_of_ne (by decide)]
  rw [unescape, hfirst, Text.replacePair, if_pos ⟨rfl, rfl⟩]
  rfl

theorem unescape_tilde_one (rest : Text) :
    unescape (.char '~' :: .char '1' :: rest) = .char '/' :: unescape rest := by
  have hfirst : Text.replacePair (.char '~') (.char '1') "/" (.char '~' :: .char '1' :: rest) =
      .char '/' :: Text.replacePair (.char '~') (.char '1') "/" rest := by
    rw [Text.replacePair, if_pos ⟨rfl, rfl⟩]
    rfl
  rw [unescape, hfirst, Text.replacePair_cons_of_ne (by decide)]
  rfl

theorem unescape_escape (key : Text) : unescape (escape key) = key := by
  induction key with
  | nil => rfl
  | cons p rest ih =>
    rw [escape, List.flatMap_cons]
    rcases escapePoint_cases p with ⟨rfl, he⟩ | ⟨rfl, he⟩ | ⟨htilde, hslash, he⟩
    · rw [he]
      exact (unescape_tilde_zero _).trans (congrArg _ ih)
    · rw [he]
      exact (unescape_tilde_one _).trans (congrArg _ ih)
    · rw [he]
      exact (unescape_cons_of_ne htilde _).trans (congrArg _ ih)

theorem keysOf_joined {path : List Text} (h : path ≠ []) :
    keysOf (Text.joined "/" (path.map escape)) = path := by
  have hpieces : Text.pieces (.char '/') (Text.joined "/" (path.map escape)) = path.map escape := by
    apply Text.pieces_joined
    · intro l hl
      obtain ⟨key, -, rfl⟩ := List.mem_map.mp hl
      exact slash_not_mem_escape key
    · simpa using h
  rw [keysOf, hpieces, List.map_map]
  exact List.map_id'' unescape_escape path

theorem pointer?_referenceTo {path : List Text} (h : path ≠ []) :
    pointer? (referenceTo path) = some path :=
  congrArg some (keysOf_joined h)

example : pointer? "#/paths/~1a~0b//~01" = some (["paths", "/a~b", "", "~1"].map Text.ofString) := by
  decide

end Spelling

/-- The reference to a path leads where its keys lead, whatever characters they hold, and it is
named by the last of them. -/
theorem lookup_referenceTo (d : Document) (keys : List Text) (last : Text) :
    (∀ u, d.lookup (referenceTo (keys ++ [last])) = some u ↔ d.root.Leads (keys ++ [last]) u) ∧
      (d.lookup (referenceTo (keys ++ [last])) = none ↔ d.root.Strays (keys ++ [last])) ∧
      referenceName (referenceTo (keys ++ [last])) = last := by
  have hpointer : pointer? (referenceTo (keys ++ [last])) = some (keys ++ [last]) :=
    pointer?_referenceTo (List.append_ne_nil_of_right_ne_nil keys (List.cons_ne_nil last []))
  rw [lookup_eq_descend hpointer]
  exact ⟨fun _ => descend_eq_some_iff, descend_eq_none_iff, referenceName_eq hpointer⟩

end Document
end ApiScaffold
