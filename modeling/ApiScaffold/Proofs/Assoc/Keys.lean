import ApiScaffold.Assoc
import Mathlib.Data.List.Induction
import Mathlib.Data.List.Nodup

namespace ApiScaffold.Assoc
variable {α : Type} {m new : Assoc α} {key : Text} {v : α}

def keys (m : Assoc α) : List Text :=
  m.map (·.1)

section Entries
variable {Q : Text × α → Prop}

theorem forall_put (h : ∀ e ∈ m, Q e) (hv : Q (key, v)) : ∀ e ∈ m.put key v, Q e := by
  induction m with
  | nil =>
    intro e he
    obtain rfl := List.mem_singleton.mp he
    exact hv
  | cons first rest ih =>
    obtain ⟨k, w⟩ := first
    have hrest : ∀ e ∈ rest, Q e := fun e he => h e (List.mem_cons_of_mem _ he)
    rw [put]
    split
    · rename_i hk
      intro e he
      rcases List.mem_cons.mp he with rfl | he
      · exact hk ▸ hv
      · exact hrest e he
    · intro e he
      rcases List.mem_cons.mp he with rfl | he
      · exact h _ List.mem_cons_self
      · exact ih hrest e he

theorem forall_putAll (h : ∀ e ∈ m, Q e) (hnew : ∀ e ∈ new, Q e) : ∀ e ∈ m.putAll new, Q e := by
  induction new generalizing m with
  | nil => exact h
  | cons first rest ih =>
    have hput : ∀ e ∈ m.put first.1 first.2, Q e := forall_put h (hnew first List.mem_cons_self)
    exact ih hput fun e he => hnew e (List.mem_cons_of_mem _ he)

theorem forall_ofList (h : ∀ e ∈ new, Q e) : ∀ e ∈ ofList new, Q e :=
  forall_putAll (by simp) h

end Entries

/-- A key that is there keeps its place, and a new one comes last. -/
theorem keys_put : (m.put key v).keys = if key ∈ m.keys then m.keys else m.keys ++ [key] := by
  induction m with
  | nil => rfl
  | cons first rest ih =>
    obtain ⟨k, w⟩ := first
    rw [put]
    split
    · rename_i hk
      simp [keys, hk]
    · rename_i hk
      have hne : key ≠ k := fun he => hk he.symm
      simp only [keys, List.map_cons, List.mem_cons, hne, false_or] at ih ⊢
      rw [ih]
      exact apply_ite (k :: ·) _ _ _

theorem nodup_keys_put (h : m.keys.Nodup) : (m.put key v).keys.Nodup := by
  rw [keys_put]
  split
  · exact h
  · rename_i hfree
    exact h.append (List.nodup_singleton key) (List.disjoint_singleton.mpr hfree)

theorem nodup_keys_putAll (h : m.keys.Nodup) : (m.putAll new).keys.Nodup := by
  induction new generalizing m with
  | nil => exact h
  | cons first rest ih => exact ih (nodup_keys_put h)

section Passes
variable {other : Text} {w : α}

theorem put_put_self : (m.put key w).put key v = m.put key v := by
  induction m with
  | nil => simp [put]
  | cons first rest ih =>
    obtain ⟨k, u⟩ := first
    by_cases hk : k = key
    · simp [put, hk]
    · simp [put, hk, ih]

/-- A key that is there can be written before another one. -/
theorem put_comm (hm : key ∈ m.keys) (hne : key ≠ other) :
    (m.put other w).put key v = (m.put key v).put other w := by
  induction m with
  | nil => cases hm
  | cons first rest ih =>
    obtain ⟨k, u⟩ := first
    by_cases hk : k = key
    · subst hk
      simp [put, hne]
    · have hrest : key ∈ keys rest := by simpa [keys, Ne.symm hk] using hm
      by_cases ho : k = other
      · subst ho
        simp [put, hk]
      · simp [put, hk, ho, ih hrest]

theorem putAll_put_comm (hm : key ∈ m.keys) (hnew : key ∉ new.keys) :
    (m.putAll new).put key v = (m.put key v).putAll new := by
  induction new generalizing m with
  | nil => rfl
  | cons first rest ih =>
    obtain ⟨hne, hrest⟩ : key ≠ first.1 ∧ key ∉ keys rest := by simpa [keys] using hnew
    have hput : key ∈ (m.put first.1 first.2).keys := by
      rw [keys_put]
      split
      · exact hm
      · exact List.mem_append_left _ hm
    change ((m.put first.1 first.2).putAll rest).put key v =
      ((m.put key v).put first.1 first.2).putAll rest
    rw [ih hput hrest, put_comm hm hne]

/-- Whether an entry is put into what is written, or behind it, comes to the same. -/
theorem putAll_put (hn : new.keys.Nodup) : m.putAll (new.put key v) = (m.putAll new).put key v := by
  induction new generalizing m with
  | nil => rfl
  | cons first rest ih =>
    obtain ⟨k, u⟩ := first
    obtain ⟨hk, hrest⟩ := List.nodup_cons.mp hn
    by_cases he : k = key
    · subst he
      have hkeys : k ∈ (m.put k u).keys := by
        rw [keys_put]
        split <;> simp_all
      rw [put, if_pos rfl]
      change (m.put k v).putAll rest = ((m.put k u).putAll rest).put k v
      rw [putAll_put_comm hkeys hk, put_put_self]
    · rw [put, if_neg he]
      exact ih hrest

/-- Writing what was written together before is one pass over all entries. -/
theorem putAll_putAll {entries : Assoc α} (hn : new.keys.Nodup) :
    m.putAll (new.putAll entries) = (m.putAll new).putAll entries := by
  induction entries generalizing new with
  | nil => rfl
  | cons e rest ih =>
    change m.putAll ((new.put e.1 e.2).putAll rest) = ((m.putAll new).put e.1 e.2).putAll rest
    rw [ih (nodup_keys_put hn), putAll_put hn]

end Passes

section Last
variable {entries : Assoc α} {e : Text × α}

/-- No entry behind this one has its key. -/
def IsLast (e : Text × α) (entries : Assoc α) : Prop :=
  ∃ before after, entries = before ++ e :: after ∧ e.1 ∉ keys after

theorem isLast_append_singleton {x : Text × α} :
    IsLast e (entries ++ [x]) ↔ e = x ∨ (IsLast e entries ∧ e.1 ≠ x.1) := by
  constructor
  · rintro ⟨before, after, he, hafter⟩
    rcases List.eq_nil_or_concat' after with rfl | ⟨rest, y, rfl⟩
    · obtain ⟨-, hx⟩ := List.append_inj' he rfl
      exact .inl (List.cons.inj hx).1.symm
    · have hsplit : entries ++ [x] = (before ++ e :: rest) ++ [y] := by simpa using he
      obtain ⟨rfl, hy⟩ := List.append_inj' hsplit rfl
      obtain rfl : x = y := by simpa using hy
      simp only [keys, List.map_append, List.mem_append, not_or] at hafter
      exact .inr ⟨⟨before, rest, rfl, hafter.1⟩, by simpa using hafter.2⟩
  · rintro (rfl | ⟨⟨before, after, rfl, hafter⟩, hne⟩)
    · exact ⟨entries, [], rfl, List.not_mem_nil⟩
    · refine ⟨before, after ++ [x], by simp, ?_⟩
      simp only [keys, List.map_append, List.mem_append, not_or]
      exact ⟨hafter, by simpa using hne⟩

theorem mem_put_iff (h : m.keys.Nodup) :
    e ∈ m.put key v ↔ e = (key, v) ∨ (e ∈ m ∧ e.1 ≠ key) := by
  induction m with
  | nil => simp [put]
  | cons first rest ih =>
    obtain ⟨k, w⟩ := first
    obtain ⟨hfresh, hrest⟩ := List.nodup_cons.mp h
    rw [put]
    split
    · rename_i hk
      subst hk
      have hother : e ∈ rest → e.1 ≠ k := by
        rintro hm rfl
        exact hfresh (List.mem_map.mpr ⟨e, hm, rfl⟩)
      rw [List.mem_cons, List.mem_cons]
      constructor
      · rintro (he | hm)
        · exact .inl he
        · exact .inr ⟨.inr hm, hother hm⟩
      · rintro (he | ⟨rfl | hm, hne⟩)
        · exact .inl he
        · exact absurd rfl hne
        · exact .inr hm
    · rename_i hk
      rw [List.mem_cons, List.mem_cons, ih hrest]
      constructor
      · rintro (rfl | he | ⟨hm, hne⟩)
        · exact .inr ⟨.inl rfl, hk⟩
        · exact .inl he
        · exact .inr ⟨.inr hm, hne⟩
      · rintro (he | ⟨rfl | hm, hne⟩)
        · exact .inr (.inl he)
        · exact .inl rfl
        · exact .inr (.inr ⟨hm, hne⟩)

theorem ofList_append_singleton (entries : Assoc α) (x : Text × α) :
    ofList (entries ++ [x]) = (ofList entries).put x.1 x.2 := by
  rw [ofList, putAll, List.foldl_append]
  rfl

theorem nodup_keys_ofList (entries : Assoc α) : (ofList entries).keys.Nodup :=
  nodup_keys_putAll List.nodup_nil

/-- The keys of a map stand in the order in which they were first put. -/
theorem keys_ofList (entries : Assoc α) : (ofList entries).keys = (keys entries).eraseDups := by
  induction entries using List.reverseRecOn with
  | nil => rfl
  | append_singleton entries x ih =>
    have hkeys : keys (entries ++ [x]) = keys entries ++ [x.1] := List.map_append
    rw [ofList_append_singleton, keys_put, ih, hkeys, List.eraseDups_append]
    by_cases hm : x.1 ∈ keys entries
    · simp [hm, List.removeAll]
    · simp [hm, List.removeAll, List.eraseDups_cons]

/-- A map holds the last entry of each key. -/
theorem mem_ofList_iff : e ∈ ofList entries ↔ IsLast e entries := by
  induction entries using List.reverseRecOn with
  | nil => simp [ofList, putAll, IsLast]
  | append_singleton entries x ih =>
    rw [ofList_append_singleton, mem_put_iff (nodup_keys_ofList entries), ih,
      isLast_append_singleton]

end Last

section Lookup
variable {entries : Assoc α} {w : α} {p : Text → Bool}

theorem eq_of_mem_of_mem (h : m.keys.Nodup) (hv : (key, v) ∈ m) (hw : (key, w) ∈ m) : v = w :=
  congrArg Prod.snd (List.inj_on_of_nodup_map h hv hw rfl)

theorem get?_eq_some_iff (h : m.keys.Nodup) : m.get? key = some v ↔ (key, v) ∈ m := by
  induction m with
  | nil => simp [get?]
  | cons first rest ih =>
    obtain ⟨k, w⟩ := first
    obtain ⟨hfresh, hrest⟩ := List.nodup_cons.mp h
    rw [get?, List.mem_cons, Prod.mk.injEq]
    split
    · rename_i hk
      have hnot : (key, v) ∉ rest := fun hm => hfresh (List.mem_map.mpr ⟨_, hm, hk.symm⟩)
      simp [hk, hnot, eq_comm]
    · rename_i hk
      simp [ih hrest, Ne.symm hk]

theorem get?_ofList_eq_some_iff : (ofList entries).get? key = some v ↔ IsLast (key, v) entries := by
  rw [get?_eq_some_iff (nodup_keys_ofList entries), mem_ofList_iff]

/-- The first item of a class is no repetition. -/
theorem find?_eraseDups {β : Type} [BEq β] [LawfulBEq β] (p : β → Bool) :
    ∀ l : List β, l.eraseDups.find? p = l.find? p
  | [] => rfl
  | a :: rest => by
    rw [List.eraseDups_cons, List.find?_cons, List.find?_cons, find?_eraseDups p,
      List.find?_filter]
    cases ha : p a with
    | true => rfl
    | false =>
      refine congrArg (List.find? · rest) (funext fun b => ?_)
      by_cases hb : b = a
      · simp [hb, ha]
      · simp [hb]
termination_by l => l.length
decreasing_by exact Nat.lt_succ_of_le (List.length_filter_le _ _)

/-- What is found in a map by its key alone stands under the first such key. -/
theorem find?_ofList_eq_some_iff :
    ((ofList entries).find? fun e => p e.1).map (·.2) = some v ↔
      ∃ key, entries.keys.find? p = some key ∧ IsLast (key, v) entries := by
  have hkeys : entries.keys.find? p = ((ofList entries).find? fun e => p e.1).map (·.1) := by
    rw [← find?_eraseDups, ← keys_ofList, keys, List.find?_map]
    rfl
  have hnodup := nodup_keys_ofList entries
  rw [hkeys, Option.map_eq_some_iff]
  constructor
  · rintro ⟨e, he, rfl⟩
    exact ⟨e.1, by rw [he]; rfl, mem_ofList_iff.mp (List.mem_of_find?_eq_some he)⟩
  · rintro ⟨key, hkey, hlast⟩
    obtain ⟨e, he, rfl⟩ := Option.map_eq_some_iff.mp hkey
    have hmem : (e.1, e.2) ∈ ofList entries := List.mem_of_find?_eq_some he
    exact ⟨e, he, eq_of_mem_of_mem hnodup hmem (mem_ofList_iff.mpr hlast)⟩

end Lookup
end ApiScaffold.Assoc
