import ApiScaffold.Proofs.Name.Claimed
import ApiScaffold.Proofs.Text.Settled

namespace ApiScaffold.Name
variable {mode : CaseMode} {taken after names results : List Text} {name : Text} {tries k : Nat}

section Search

/-- The search as a loop without a bound on its turns, each of which replaces a candidate whose key
is taken by the next numbered name. A loop that goes on for ever has no result. -/
inductive Searches (mode : CaseMode) (taken : List Text) (name : Text) : Text → Nat → Text → Prop
  | ends {candidate : Text} {next : Nat} (hfree : mode.key candidate ∉ taken) :
      Searches mode taken name candidate next candidate
  | turns {candidate result : Text} {next : Nat} (htaken : mode.key candidate ∈ taken)
      (hrest : Searches mode taken name (numbered name next) (next + 1) result) :
      Searches mode taken name candidate next result

/-- Each turn of the loop is one try, so the loop ends if a candidate within the tries is free. -/
theorem searches_firstFree
    (h : ∃ j, k ≤ j ∧ j ≤ k + tries ∧ mode.key (numbered name j) ∉ taken) :
    Searches mode taken name (numbered name k) (k + 1) (firstFree mode taken name tries k) := by
  induction tries generalizing k with
  | zero =>
    obtain ⟨j, hk, hle, hfree⟩ := h
    obtain rfl : j = k := by omega
    exact .ends hfree
  | succ tries ih =>
    rw [firstFree]
    by_cases htaken : mode.key (numbered name k) ∈ taken
    · rw [if_pos htaken]
      apply Searches.turns htaken
      apply ih
      obtain ⟨j, hk, hle, hfree⟩ := h
      have hne : j ≠ k := by
        intro he
        rw [he] at hfree
        exact hfree htaken
      exact ⟨j, by omega, by omega, hfree⟩
    · rw [if_neg htaken]
      exact .ends htaken

/-- The loop ends for every name and all taken names, with the name that is chosen. -/
theorem searches_unique (mode : CaseMode) (taken : List Text) (name : Text) :
    Searches mode taken name name 2 (unique mode taken name) := by
  unfold unique
  split
  · rename_i htaken
    exact .turns htaken (searches_firstFree (exists_free mode taken name 2))
  · rename_i hfree
    exact .ends hfree

end Search

section Choice

/-- A name is vacant if its key is not among the taken names. -/
def CaseMode.Vacant (mode : CaseMode) (taken : List Text) (name : Text) : Prop :=
  mode.key name ∉ taken

/-- A name is apart if it is another one than each taken name, as the case mode compares them. -/
def CaseMode.Apart (mode : CaseMode) (taken : List Text) (name : Text) : Prop :=
  ∀ t ∈ taken, mode.key t ≠ mode.key name

/-- The wanted name if it is free, and otherwise the numbered one with the smallest free number
from two on. -/
inductive FirstFree (free : Text → Prop) (name : Text) : Text → Prop
  | itself (h : free name) : FirstFree free name name
  | numbered (k : Nat) (htaken : ¬ free name) (hk : 2 ≤ k) (hfree : free (numbered name k))
      (hfirst : ∀ j, 2 ≤ j → j < k → ¬ free (Name.numbered name j)) :
      FirstFree free name (Name.numbered name k)

theorem firstFree_unique (mode : CaseMode) (taken : List Text) (name : Text) :
    FirstFree (mode.Vacant taken) name (unique mode taken name) := by
  unfold unique
  split
  · rename_i htaken
    obtain ⟨k, hk, he, hfree, hbefore⟩ := firstFree_spec (exists_free mode taken name 2)
    rw [he]
    apply FirstFree.numbered k (not_not_intro htaken) hk hfree
    intro j hj hlt
    exact not_not_intro (hbefore j hj hlt)
  · rename_i hfree
    exact .itself hfree

end Choice

section Calls

/-- Calls one after another that share the taken names. Each one ends, with the first free name,
and adds the key of this name, which was not there, and nothing else. -/
inductive Calls (free : List Text → Text → Prop) (mode : CaseMode) :
    List Text → List Text → List Text → Prop
  | done (taken : List Text) : Calls free mode taken [] []
  | call {taken after names results : List Text} {name chosen : Text}
      (hclaim : claim mode taken name = (chosen, after))
      (hends : Searches mode taken name name 2 chosen)
      (hfirst : FirstFree (free taken) name chosen)
      (hnew : mode.key chosen ∉ taken)
      (hgrows : ∀ t, t ∈ after ↔ t = mode.key chosen ∨ t ∈ taken)
      (hrest : Calls free mode after names results) :
      Calls free mode taken (name :: names) (chosen :: results)

/-- What a sequence of calls is to keep, where `free` tells which names are free beside the taken
ones: the results are told apart from each other, and they were free at the start. -/
structure Orderly (free : List Text → Text → Prop) (mode : CaseMode) (taken names : List Text) :
    Prop where
  calls : Calls free mode taken names (claimAll mode taken names)
  distinct : ((claimAll mode taken names).map mode.key).Nodup
  fresh : ∀ n ∈ claimAll mode taken names, free taken n

/-- The taken names hold the key of each of them. -/
def CaseMode.Keyed (mode : CaseMode) (taken : List Text) : Prop :=
  ∀ t ∈ taken, mode.key t ∈ taken

theorem key_key (mode : CaseMode) (name : Text) : mode.key (mode.key name) = mode.key name := by
  cases mode with
  | exact => rfl
  | folded => exact Text.lower_lower name

/-- What is taken after a call comes with its keys if what was taken before did. -/
theorem CaseMode.Keyed.grows (h : mode.Keyed taken)
    (hgrows : ∀ t, t ∈ after ↔ t = mode.key name ∨ t ∈ taken) : mode.Keyed after := by
  intro t ht
  apply (hgrows _).mpr
  rcases (hgrows t).mp ht with he | ht
  · rw [he, key_key]
    exact .inl rfl
  · exact .inr (h t ht)

/-- Among keys a look at the name's key is as good as a comparison with every name. -/
theorem CaseMode.Keyed.apart_eq_vacant (h : mode.Keyed taken) :
    mode.Apart taken = mode.Vacant taken := by
  funext name
  apply propext
  constructor
  · intro hapart hmem
    exact hapart _ hmem (key_key mode name)
  · intro hvacant t ht he
    exact hvacant (he ▸ h t ht)

theorem calls_vacant (mode : CaseMode) (taken names : List Text) :
    Calls mode.Vacant mode taken names (claimAll mode taken names) := by
  induction names generalizing taken with
  | nil => exact .done taken
  | cons name names ih =>
    exact .call rfl (searches_unique mode taken name) (firstFree_unique mode taken name)
      (key_unique_not_mem mode taken name) (fun t => List.mem_cons) (ih _)

theorem Calls.apart (h : Calls mode.Vacant mode taken names results) (hkeyed : mode.Keyed taken) :
    Calls mode.Apart mode taken names results := by
  induction h with
  | done taken => exact .done taken
  | call hclaim hends hfirst hnew hgrows hrest ih =>
    rw [← hkeyed.apart_eq_vacant] at hfirst
    exact .call hclaim hends hfirst hnew hgrows (ih (hkeyed.grows hgrows))

theorem orderly_vacant (mode : CaseMode) (taken names : List Text) :
    Orderly mode.Vacant mode taken names :=
  ⟨calls_vacant mode taken names, (nodup_claimAll mode taken names).1,
    (nodup_claimAll mode taken names).2⟩

theorem orderly_apart (h : mode.Keyed taken) (names : List Text) :
    Orderly mode.Apart mode taken names where
  calls := (calls_vacant mode taken names).apart h
  distinct := (nodup_claimAll mode taken names).1
  fresh := h.apart_eq_vacant ▸ (nodup_claimAll mode taken names).2

theorem keyed_of_orderly (h : ∀ names, Orderly mode.Apart mode taken names) : mode.Keyed taken := by
  intro t ht
  by_contra hvacant
  have hresult : t ∈ claimAll mode taken [t] := by
    have hself : unique mode taken t = t := unique_eq_self_iff.mpr hvacant
    simp [claimAll, claim, hself]
  exact (h [t]).fresh t hresult t ht rfl

/-- Every sequence of calls ends, chooses the first free names and takes just their keys. The
keys of the results are never alike, and they are none of the names that were taken at the start;
that the results are apart from these names, too, holds for all sequences exactly if the names
come with their keys. -/
theorem orderly_iff_keyed (mode : CaseMode) (taken : List Text) :
    (∀ names, Orderly mode.Vacant mode taken names) ∧
      ((∀ names, Orderly mode.Apart mode taken names) ↔ mode.Keyed taken) :=
  ⟨orderly_vacant mode taken, keyed_of_orderly, orderly_apart⟩

/-- A capital letter among the taken names is not found when case is ignored. -/
theorem not_orderly_capital : claimAll .folded ["Pet"] ["Pet"] = ["Pet"] ∧
    ¬ Orderly CaseMode.folded.Apart .folded ["Pet"] ["Pet"] := by
  have hresult : claimAll .folded ["Pet"] ["Pet"] = ["Pet"] := by decide +kernel
  refine ⟨hresult, ?_⟩
  intro h
  exact h.fresh "Pet" (hresult ▸ List.mem_cons_self) "Pet" List.mem_cons_self rfl

/-- Nothing is taken at the start of a statement, so its names are always told apart. -/
example (names : List Text) : Orderly CaseMode.folded.Apart .folded [] names :=
  orderly_apart (fun _ h => absurd h List.not_mem_nil) names

end Calls
end ApiScaffold.Name
