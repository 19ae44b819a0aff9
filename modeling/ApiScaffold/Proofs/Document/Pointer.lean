import ApiScaffold.Document.Operation
import ApiScaffold.Proofs.Text.Pieces

namespace ApiScaffold

namespace Tree
variable {t v : Tree} {entries : Entries} {name key : Text}

theorem get?_eq_find? (t : Tree) (name : Text) :
    t.get? name = find? (.str name) (t.map?.getD []) := by
  unfold get?
  cases t.map? <;> rfl

theorem get?_cons (n name : Text) (v : Tree) (rest : Entries) :
    (map ((.str n, v) :: rest)).get? name = if n = name then some v else (map rest).get? name := by
  simp [get?, map?, plain, find?, sameKey]

theorem eq_of_sameKey_str {k : Tree} (h : k.sameKey (.str name) = true) : k = .str name := by
  cases k <;> simp_all [sameKey, whole?]

theorem sameKey_str_self (name : Text) : sameKey (.str name) (.str name) = true :=
  beq_self_eq_true name

theorem mem_of_find?_str (h : find? (.str name) entries = some v) : (.str name, v) ∈ entries := by
  induction entries with
  | nil => cases h
  | cons e rest ih =>
    obtain ⟨k, w⟩ := e
    rw [find?] at h
    split at h
    · rename_i hk
      cases h
      rw [eq_of_sameKey_str hk]
      exact List.mem_cons_self
    · exact List.mem_cons_of_mem _ (ih h)

theorem find?_str_eq_none_iff :
    find? (.str name) entries = none ↔ ∀ e ∈ entries, e.1 ≠ .str name := by
  induction entries with
  | nil => simp [find?]
  | cons e rest ih =>
    obtain ⟨k, v⟩ := e
    rw [find?, List.forall_mem_cons, ← ih]
    split
    · rename_i hsame
      simp [eq_of_sameKey_str hsame]
    · rename_i hsame
      have hne : k ≠ .str name := by
        rintro rfl
        exact hsame (sameKey_str_self name)
      exact (and_iff_right hne).symm

end Tree

namespace Document
variable {d : Document} {r name : Text} {keys path : List Text} {schema : Tree}

/-- The keys by which a reference goes down into the document. -/
def pointer? (reference : Text) : Option (List Text) :=
  match reference with
  | .char '#' :: .char '/' :: path => some ((Text.pieces (.char '/') path).map unescape)
  | _ => none

theorem lookup_eq_descend (h : pointer? r = some keys) : d.lookup r = descend d.root keys := by
  unfold pointer? at h
  split at h
  · cases h
    rfl
  · cases h

theorem lookup_eq_bind (d : Document) (r : Text) :
    d.lookup r = (pointer? r).bind (descend d.root) := by
  cases h : pointer? r with
  | some keys => rw [lookup_eq_descend h, Option.bind_some]
  | none =>
    unfold pointer? at h
    split at h
    · cases h
    · rename_i hother
      unfold lookup
      split
      · exact absurd rfl (hother _)
      · rfl

/-- Only itself is read as a key in which nothing was escaped. -/
theorem eq_of_unescape {part key : Text} (h : unescape part = key) (htilde : .char '~' ∉ key)
    (hslash : .char '/' ∉ key) : part = key :=
  Text.eq_of_replacePair (Text.eq_of_replacePair h htilde) hslash

/-- The keys that a path goes down by. -/
def keysOf (path : Text) : List Text :=
  (Text.pieces (.char '/') path).map unescape

theorem keysOf_ne_nil (path : Text) : keysOf path ≠ [] := by
  rw [keysOf, Text.pieces_eq_splitOn, ne_eq, List.map_eq_nil_iff]
  exact List.splitOn_ne_nil _ path

theorem keysOf_append {key : Text} (rest : Text) (h : .char '/' ∉ key) :
    keysOf (key ++ .char '/' :: rest) = unescape key :: keysOf rest := by
  have hjoined : Text.pieces (.char '/') (([.char '/'] : Text).intercalate [key]) = [key] :=
    Text.pieces_joined (by simpa using h) (by simp)
  have hkey : Text.pieces (.char '/') key = [key] := by simpa using hjoined
  rw [keysOf, Text.pieces_append_cons, hkey]
  rfl

theorem pointer?_eq_some {keys : List Text} (h : pointer? r = some keys) :
    ∃ path, r = .char '#' :: .char '/' :: path ∧ keys = keysOf path := by
  unfold pointer? at h
  split at h
  · exact ⟨_, rfl, (Option.some.inj h).symm⟩
  · cases h

/-- A path whose first key is one without signs to escape opens with that key. -/
theorem eq_or_append_of_keysOf {path key : Text} {rest : List Text}
    (h : keysOf path = key :: rest) (htilde : .char '~' ∉ key) (hslash : .char '/' ∉ key) :
    path = key ∨ ∃ more, path = key ++ .char '/' :: more := by
  obtain ⟨first, more, hpieces, hfirst, -⟩ := List.map_eq_cons_iff.mp h
  obtain rfl := eq_of_unescape hfirst htilde hslash
  exact Text.eq_or_append_of_pieces hpieces

/-- A reference is named by the last of its keys. -/
theorem referenceName_eq (h : pointer? r = some (path ++ [name])) : referenceName r = name := by
  unfold pointer? at h
  split at h
  · rename_i rest
    have hkeys := congrArg List.getLast? (Option.some.inj h)
    rw [List.getLast?_map, List.getLast?_concat] at hkeys
    obtain ⟨last, hlast, rfl⟩ := Option.map_eq_some_iff.mp hkeys
    -- The first piece is the sign that the reference opens with, the others are its keys.
    have hpieces := Text.pieces_append_cons (.char '/') [.char '#'] rest
    have hr : Text.afterLast (.char '/') (.char '#' :: .char '/' :: rest) = last := by
      rw [Text.afterLast, ← List.singleton_append, hpieces, List.getLast?_append, hlast]
      rfl
    rw [referenceName, hr]
  · cases h

/-- What is absent has nothing below it. -/
theorem descend_cons_cons (t : Tree) (key next : Text) (rest : List Text) :
    descend t (key :: next :: rest) = descend (t.get key) (next :: rest) := by
  rw [descend, Tree.get]
  cases t.get? key <;> rfl

theorem descend_singleton (t : Tree) (name : Text) : descend t [name] = t.get? name := by
  rw [descend]
  cases t.get? name <;> rfl

/-- Where the version of the description keeps its entities. -/
def entityPath (d : Document) : List Text :=
  match (d.root.get "components").get "schemas" with
  | .null => ["definitions"]
  | _ => ["components", "schemas"]

theorem entityPath_eq (d : Document) :
    (((d.root.get "components").get "schemas") = .null ∧
      d.entityPath = [Text.ofString "definitions"] ∧
      d.entitySchemas = (d.root.get "definitions").map?.getD []) ∨
    (((d.root.get "components").get "schemas") ≠ .null ∧
      d.entityPath = [Text.ofString "components", Text.ofString "schemas"] ∧
      d.entitySchemas = ((d.root.get "components").get "schemas").map?.getD []) := by
  unfold entityPath entitySchemas
  by_cases hnull : (d.root.get "components").get "schemas" = .null
  · refine .inl ⟨hnull, ?_⟩
    rw [hnull]
    exact ⟨rfl, rfl⟩
  · refine .inr ⟨hnull, ?_⟩
    constructor
    · split
      · contradiction
      · rfl
    · dsimp only
      split
      · contradiction
      · rfl

theorem descend_entityPath (d : Document) (name : Text) :
    descend d.root (d.entityPath ++ [name]) = Tree.find? (.str name) d.entitySchemas := by
  rcases d.entityPath_eq with ⟨-, hpath, hentities⟩ | ⟨-, hpath, hentities⟩
  · rw [hpath, hentities, ← Tree.get?_eq_find?, List.singleton_append, descend_cons_cons,
      descend_singleton]
  · have happend : [Text.ofString "components", Text.ofString "schemas"] ++ [name] =
        [Text.ofString "components", Text.ofString "schemas", name] := rfl
    rw [hpath, hentities, ← Tree.get?_eq_find?, happend, descend_cons_cons, descend_cons_cons,
      descend_singleton]

end Document
end ApiScaffold
