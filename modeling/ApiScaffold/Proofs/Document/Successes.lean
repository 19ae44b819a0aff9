import ApiScaffold.Proofs.Document.Steps
import Mathlib.Data.List.Induction

namespace ApiScaffold.Document

/-- A key spells a status of success: a 2 and two more digits, behind which a line feed may
stand. -/
inductive Succeeds : Text → Nat → Prop
  | intro {tens ones : Char} {x y : Nat} {tail : Text} (htens : Text.digit? tens = some x)
      (hones : Text.digit? ones = some y) (htail : tail = [] ∨ tail = "\n") :
      Succeeds (.char '2' :: .char tens :: .char ones :: tail) (200 + 10 * x + y)

theorem successCode?_eq_some_iff {key : Text} {code : Nat} :
    successCode? key = some code ↔ Succeeds key code := by
  constructor
  · intro h
    unfold successCode? at h
    split at h
    · split at h
      · rename_i htail
        obtain ⟨x, hx, y, hy, rfl⟩ : ∃ x, Text.digit? _ = some x ∧
            ∃ y, Text.digit? _ = some y ∧ 200 + 10 * x + y = code := by
          simpa [Option.bind_eq_some_iff] using h
        exact .intro hx hy htail
      · cases h
    · cases h
  · rintro ⟨hx, hy, htail⟩
    simp [successCode?, hx, hy, htail]

section Sorting
variable {α : Type} {code c : Nat} {value : α} {l m before after : List (Nat × α)}

/-- The statuses do not descend. -/
def Ascending (l : List (Nat × α)) : Prop :=
  l.Pairwise fun a b => a.1 ≤ b.1

def atStatus (c : Nat) (l : List (Nat × α)) : List (Nat × α) :=
  l.filter (·.1 = c)

theorem mem_atStatus {e : Nat × α} : e ∈ atStatus c l ↔ e ∈ l ∧ e.1 = c := by
  simp [atStatus]

theorem mem_insertByCode {e : Nat × α} :
    e ∈ insertByCode code value l ↔ e = (code, value) ∨ e ∈ l := by
  induction l with
  | nil => simp [insertByCode]
  | cons first rest ih =>
    rw [insertByCode]
    split
    · rw [List.mem_cons, ih, List.mem_cons]
      exact or_left_comm
    · exact List.mem_cons

theorem ascending_insertByCode (h : Ascending l) : Ascending (insertByCode code value l) := by
  induction l with
  | nil => exact List.pairwise_singleton _ _
  | cons first rest ih =>
    obtain ⟨hfirst, hrest⟩ := List.pairwise_cons.mp h
    rw [insertByCode]
    split
    · rename_i hle
      refine List.pairwise_cons.mpr ⟨fun e he => ?_, ih hrest⟩
      rcases mem_insertByCode.mp he with rfl | he
      · exact hle
      · exact hfirst e he
    · rename_i hlt
      have hcode : code ≤ first.1 := Nat.le_of_not_le hlt
      refine List.pairwise_cons.mpr ⟨fun e he => ?_, h⟩
      rcases List.mem_cons.mp he with rfl | he
      · exact hcode
      · exact Nat.le_trans hcode (hfirst e he)

/-- Among equal statuses, the new one comes last. -/
theorem atStatus_insertByCode (h : Ascending l) :
    atStatus c (insertByCode code value l) = atStatus c l ++ atStatus c [(code, value)] := by
  induction l with
  | nil => rfl
  | cons first rest ih =>
    obtain ⟨hfirst, hrest⟩ := List.pairwise_cons.mp h
    have hcons (e : Nat × α) (l : List (Nat × α)) :
        atStatus c (e :: l) = atStatus c [e] ++ atStatus c l :=
      List.filter_append [e] l
    rw [insertByCode]
    split
    · rw [hcons, ih hrest, hcons first rest, List.append_assoc]
    · rename_i hlt
      rw [hcons]
      by_cases hc : code = c
      · have hnone : atStatus c (first :: rest) = [] := by
          refine List.filter_eq_nil_iff.mpr fun e he => ?_
          have hle : first.1 ≤ e.1 := by
            rcases List.mem_cons.mp he with rfl | he
            · exact Nat.le_refl _
            · exact hfirst e he
          have hne : e.1 ≠ c := by omega
          simpa using hne
        rw [hnone, List.append_nil, List.nil_append]
      · have hnew : atStatus c [(code, value)] = [] := by simp [atStatus, hc]
        rw [hnew, List.append_nil, List.nil_append]

/-- Two lists that agree at every status are split alike by what stands at one. -/
theorem exists_split_of_atStatus (h : ∀ c, atStatus c l = atStatus c m)
    (hl : l = before ++ (code, value) :: after) :
    ∃ first last, m = first ++ (code, value) :: last ∧
      atStatus code first = atStatus code before := by
  have hcode : atStatus code m = atStatus code before ++ (code, value) :: atStatus code after := by
    rw [← h, hl, atStatus, List.filter_append, List.filter_cons_of_pos (by simp)]
    rfl
  obtain ⟨first, rest, rfl, hfirst, hrest⟩ := List.filter_eq_append_iff.mp hcode
  obtain ⟨skipped, last, rfl, hskipped, -, -⟩ := List.filter_eq_cons_iff.mp hrest
  refine ⟨first ++ skipped, last, by simp, ?_⟩
  have hnone : atStatus code skipped = [] := List.filter_eq_nil_iff.mpr hskipped
  rw [atStatus, List.filter_append]
  exact (congrArg₂ _ hfirst hnone).trans (List.append_nil _)

end Sorting

section Responses
variable {known : Assoc Tree} {c : Nat}

/-- The responses of success as they stand. -/
def succeeding (known : Assoc Tree) : List (Nat × Tree) :=
  known.filterMap fun e => (successCode? e.1).map (·, e.2)

theorem mem_succeeding {e : Nat × Tree} :
    e ∈ succeeding known ↔ ∃ key, (key, e.2) ∈ known ∧ Succeeds key e.1 := by
  obtain ⟨code, raw⟩ := e
  simp only [succeeding, List.mem_filterMap, Option.map_eq_some_iff, successCode?_eq_some_iff,
    Prod.mk.injEq, ↓existsAndEq, and_true, Prod.exists]

/-- The responses of success are the given ones by ascending status; those of one status stay in
their order. -/
theorem ascending_successes_and_atStatus (known : Assoc Tree) :
    Ascending (successes known) ∧
      ∀ c, atStatus c (successes known) = atStatus c (succeeding known) := by
  induction known using List.reverseRecOn with
  | nil => exact ⟨.nil, fun _ => rfl⟩
  | append_singleton known e ih =>
    obtain ⟨hsorted, hstatus⟩ := ih
    have hlast : successes (known ++ [e]) = insertResponse (successes known) e := by
      rw [successes_eq, List.foldl_append]
      rfl
    have hgiven : succeeding (known ++ [e]) = succeeding known ++ succeeding [e] :=
      List.filterMap_append
    rw [hlast, hgiven, insertResponse]
    cases hcode : successCode? e.1 with
    | none =>
      have hnone : succeeding [e] = [] := by simp [succeeding, hcode]
      rw [hnone, List.append_nil]
      exact ⟨hsorted, hstatus⟩
    | some code =>
      have hone : succeeding [e] = [(code, e.2)] := by simp [succeeding, hcode]
      refine ⟨ascending_insertByCode hsorted, fun c => ?_⟩
      rw [hone, atStatus_insertByCode hsorted, hstatus]
      exact (List.filter_append _ _).symm

theorem mem_successes {e : Nat × Tree} :
    e ∈ successes known ↔ ∃ key, (key, e.2) ∈ known ∧ Succeeds key e.1 := by
  have hmem : e ∈ atStatus e.1 (successes known) ↔ e ∈ atStatus e.1 (succeeding known) := by
    rw [(ascending_successes_and_atStatus known).2]
  rw [← mem_succeeding]
  simpa [mem_atStatus] using hmem

end Responses

end ApiScaffold.Document
