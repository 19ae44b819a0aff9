import ApiScaffold.Proofs.Document.Pointer
import Mathlib.Data.List.Forall2
import Mathlib.Data.List.Perm.Basic

namespace ApiScaffold.Tree
variable {t u v : Tree} {entries entries' : Entries} {name key : Text} {path : List Text}
  {R : Tree → Tree → Prop}

/-- The texts among the keys. -/
def textKeys (entries : Entries) : List Text :=
  entries.filterMap fun e => e.1.str?

/-- The same entries in another order. No text is the key of two of them. -/
inductive Reordered : Tree → Tree → Prop
  | map {entries entries' : Entries} (h : entries.Perm entries') (hk : (textKeys entries).Nodup) :
      Reordered (.map entries) (.map entries')

/-- Trees that are equal but for what stands at the end of a path of keys. -/
def At (R : Tree → Tree → Prop) : List Text → Tree → Tree → Prop
  | [], t, u => R t u
  | key :: path, t, u => t = u ∨ ∃ entries entries', t = .map entries ∧ u = .map entries' ∧
      List.Forall₂ (fun e e' => e.1 = e'.1 ∧ (e.2 = e'.2 ∨ e.1 = .str key ∧ At R path e.2 e'.2))
        entries entries'

section Keys

theorem mem_textKeys (h : (.str name, v) ∈ entries) : name ∈ textKeys entries :=
  List.mem_filterMap.mpr ⟨_, h, rfl⟩

theorem find?_eq_some_iff (hk : (textKeys entries).Nodup) :
    find? (.str name) entries = some v ↔ (.str name, v) ∈ entries := by
  constructor
  · exact mem_of_find?_str
  · intro h
    induction entries with
    | nil => cases h
    | cons e rest ih =>
      obtain ⟨k, w⟩ := e
      rw [find?]
      split
      · rename_i hsame
        obtain rfl := eq_of_sameKey_str hsame
        obtain ⟨hfresh, -⟩ := List.nodup_cons.mp hk
        rcases List.mem_cons.mp h with he | hm
        · rw [(Prod.mk.inj he).2]
        · exact absurd (mem_textKeys hm) hfresh
      · rename_i hsame
        have hrest : (textKeys rest).Nodup :=
          hk.sublist ((List.sublist_cons_self _ _).filterMap _)
        rcases List.mem_cons.mp h with he | hm
        · rw [← (Prod.mk.inj he).1] at hsame
          exact absurd (sameKey_str_self name) hsame
        · exact ih hrest hm

theorem find?_perm (h : entries.Perm entries') (hk : (textKeys entries).Nodup) (name : Text) :
    find? (.str name) entries = find? (.str name) entries' := by
  have hk' : (textKeys entries').Nodup := (h.filterMap _).nodup_iff.mp hk
  apply Option.ext
  intro v
  rw [find?_eq_some_iff hk, find?_eq_some_iff hk', h.mem_iff]

end Keys

section Reordered

/-- The order of the entries does not matter where a map is read by its keys. -/
theorem Reordered.get?_eq (h : Reordered t u) (name : Text) : t.get? name = u.get? name := by
  cases h with
  | map h hk => exact find?_perm h hk name

theorem Reordered.isTruthy_eq (h : Reordered t u) : t.isTruthy = u.isTruthy := by
  cases h with
  | map h hk =>
    rename_i entries entries'
    have hlength := h.length_eq
    cases entries with
    | nil => rw [List.nil_perm.mp h]
    | cons e rest =>
      cases entries' with
      | nil => cases hlength
      | cons e' rest' => rfl

theorem Reordered.ne_null (h : Reordered t u) : u ≠ .null := by
  cases h
  nofun

theorem Reordered.perm (h : Reordered t u) :
    ∃ entries entries', t.map? = some entries ∧ u.map? = some entries' ∧
      entries.Perm entries' := by
  cases h with
  | map h hk => exact ⟨_, _, rfl, rfl, h⟩

theorem perm_entries (h : t = u ∨ Reordered t u) : (t.map?.getD []).Perm (u.map?.getD []) := by
  rcases h with rfl | h
  · exact .refl _
  · obtain ⟨entries, entries', ht, hu, hperm⟩ := h.perm
    rw [ht, hu]
    exact hperm

end Reordered

section At

/-- What stands under another key is the same. -/
theorem At.get?_of_ne (h : At R (key :: path) t u) (hn : key ≠ name) : t.get? name = u.get? name := by
  rcases h with rfl | ⟨entries, entries', rfl, rfl, h⟩
  · rfl
  · change find? (.str name) entries = find? (.str name) entries'
    induction h with
    | nil => rfl
    | @cons e e' rest rest' he _ ih =>
      obtain ⟨k, v⟩ := e
      obtain ⟨k', v'⟩ := e'
      obtain ⟨rfl, hv⟩ := he
      rw [find?, find?]
      split
      · rename_i hsame
        obtain rfl := eq_of_sameKey_str hsame
        rcases hv with rfl | ⟨hkey, -⟩
        · rfl
        · exact absurd (Tree.str.inj hkey).symm hn
      · exact ih

/-- What stands under the key itself differs only further down. -/
theorem At.get? (h : At R (key :: path) t u) :
    Option.Rel (fun v w => v = w ∨ At R path v w) (t.get? key) (u.get? key) := by
  have hsame (o : Option Tree) : Option.Rel (fun v w => v = w ∨ At R path v w) o o := by
    cases o with
    | none => exact .none
    | some v => exact .some (.inl rfl)
  rcases h with rfl | ⟨entries, entries', rfl, rfl, h⟩
  · exact hsame _
  · change Option.Rel _ (find? (.str key) entries) (find? (.str key) entries')
    induction h with
    | nil => exact .none
    | @cons e e' rest rest' he _ ih =>
      obtain ⟨k, v⟩ := e
      obtain ⟨k', v'⟩ := e'
      obtain ⟨rfl, hv⟩ := he
      rw [find?, find?]
      split
      · rcases hv with rfl | ⟨-, hat⟩
        · exact hsame _
        · exact .some (.inr hat)
      · exact ih

theorem At.isSome_map? (h : At R (key :: path) t u) : t.map?.isSome = u.map?.isSome := by
  rcases h with rfl | ⟨entries, entries', rfl, rfl, -⟩
  · rfl
  · rfl

theorem At.get_of_ne (h : At R (key :: path) t u) (hn : key ≠ name) : t.get name = u.get name := by
  rw [Tree.get, Tree.get, h.get?_of_ne hn]

theorem At.get (h : At R (key :: path) t u) :
    t.get key = u.get key ∨ At R path (t.get key) (u.get key) := by
  have hrel := h.get?
  unfold Tree.get
  cases ht : t.get? key with
  | none =>
    rw [ht] at hrel
    cases hu : u.get? key with
    | none => exact .inl rfl
    | some w =>
      rw [hu] at hrel
      cases hrel
  | some v =>
    rw [ht] at hrel
    cases hu : u.get? key with
    | none =>
      rw [hu] at hrel
      cases hrel
    | some w =>
      rw [hu] at hrel
      cases hrel with
      | some hvw => exact hvw

end At

end ApiScaffold.Tree
