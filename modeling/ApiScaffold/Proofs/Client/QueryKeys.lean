import ApiScaffold.Proofs.Client.ExportedNames
import ApiScaffold.Proofs.Client.Expressions
import Mathlib.Logic.Nontrivial.Defs

namespace ApiScaffold
open Text Client

/-- What a value of a key is, where the parameters have these values. -/
def Client.Value.eval {α : Type} (params : Text → α) : Value → Text ⊕ α
  | text s => .inl s
  | param name => .inr (params name)

namespace Endpoint
variable {α : Type} (f g : Endpoint)

/-- The expressions of the query key as they are written. -/
def keyTexts : List Text :=
  f.queryKey.map Value.code

/-- The key under which a cache holds what was read with these values of the parameters. -/
def cacheKey (params : Text → α) : List (Option (Text ⊕ α)) :=
  f.keyTexts.map fun t => (readExpression t).map (Value.eval params)

theorem keyTexts_eq : f.keyTexts =
    literal f.name :: (f.pathParameters ++ f.queryParameters).map fun p => member "params" p.name := by
  simp [keyTexts, queryKey, clientParameters, Value.code, Function.comp_def]

theorem keyTexts_head_eq_iff : f.keyTexts.head? = g.keyTexts.head? ↔ f.name = g.name := by
  rw [keyTexts_eq, keyTexts_eq, List.head?_cons, List.head?_cons, Option.some.injEq]
  exact ⟨literal_injective, congrArg literal⟩

/-- As texts the expressions are told apart as the names are. -/
theorem nodup_keyTexts_iff :
    f.keyTexts.tail.Nodup ↔ (f.clientParameters.map (·.name)).Nodup := by
  have htail : f.keyTexts.tail = (f.clientParameters.map (·.name)).map (member "params") := by
    rw [keyTexts_eq, List.tail_cons, clientParameters, List.map_map]
    rfl
  rw [htail, List.nodup_map_iff fun _ _ => member_injective]

/-- What they read is told apart as far as no line feed makes the difference. -/
theorem nodup_readExpression_iff :
    (f.keyTexts.tail.map readExpression).Nodup ↔
      (f.clientParameters.map fun p => accessed p.name).Nodup := by
  have htail : f.keyTexts.tail.map readExpression =
      (f.clientParameters.map fun p => accessed p.name).map fun n => some (.param n) := by
    rw [keyTexts_eq, List.tail_cons, ← clientParameters, List.map_map, List.map_map]
    exact List.map_congr_left fun p _ => readExpression_member p.name
  rw [htail, List.nodup_map_iff fun _ _ h => Value.param.inj (Option.some.inj h)]

theorem cacheKey_eq (params : Text → α) : f.cacheKey params =
    some (.inl f.name) :: f.clientParameters.map fun p => some (.inr (params (accessed p.name))) := by
  simp [cacheKey, keyTexts, queryKey, readExpression_code, Value.read, Value.eval,
    Function.comp_def]

theorem cacheKey_eq_iff (params params' : Text → α) :
    f.cacheKey params = f.cacheKey params' ↔
      ∀ p ∈ f.clientParameters, params (accessed p.name) = params' (accessed p.name) := by
  simp [cacheKey_eq]

/-- The key tells all values of the parameters apart unless some name ends in a line feed that is
none of its member. -/
theorem cacheKey_injective_iff [Nontrivial α] :
    (∀ params params' : Text → α, f.cacheKey params = f.cacheKey params' →
        ∀ p ∈ f.clientParameters, params p.name = params' p.name) ↔
      ∀ p ∈ f.clientParameters, accessed p.name = p.name := by
  constructor
  · intro h p hp
    obtain ⟨x, y, hxy⟩ := exists_pair_ne α
    by_contra hne
    -- The two assignments differ at this name only, and no expression reads it.
    have hkey : f.cacheKey (fun _ => x) = f.cacheKey fun n => if n = p.name then y else x := by
      rw [cacheKey_eq_iff]
      intro q _
      have hq : accessed q.name ≠ p.name := by
        intro he
        rw [← he, accessed_accessed] at hne
        exact hne rfl
      simp [hq]
    have hsame := h _ _ hkey p hp
    rw [if_pos rfl] at hsame
    exact hxy hsame
  · intro h params params' hkey p hp
    rw [← h p hp]
    exact (f.cacheKey_eq_iff params params').mp hkey p hp

/-- A function that reads with these parameters in the query. -/
def reader (name : Text) (parameters : List Text) : Endpoint :=
  { finder name with parameters := parameters.map (⟨·, .query, false, .string⟩) }

end Endpoint

namespace Spec
variable {α : Type} {s : Spec}

theorem pairwise_keyTexts_head (h : s.collisions = []) :
    s.functions.Pairwise fun f g => f.keyTexts.head? ≠ g.keyTexts.head? := by
  have hhooks := List.pairwise_map.mp (s.distinct_iff.mpr h).hooks
  refine hhooks.imp fun {f g} hne hhead => hne ?_
  rw [(f.keyTexts_head_eq_iff g).mp hhead]

/-- Among reads whose names are told apart, a key names the function first, then each parameter of
the path and of the query once. A cache tells reads with other values apart exactly where no
parameter has an identifier with a line feed behind it for a name: that is read as the
identifier. -/
theorem queryKeys_apart [Nontrivial α] (h : s.collisions = []) :
    (s.functions.Pairwise fun f g => f.keyTexts.head? ≠ g.keyTexts.head?) ∧
    (∀ f : Endpoint,
      f.keyTexts =
        literal f.name ::
          (f.pathParameters ++ f.queryParameters).map (fun p => member "params" p.name) ∧
      (f.keyTexts.tail.Nodup ↔ (f.clientParameters.map (·.name)).Nodup) ∧
      ((f.keyTexts.tail.map readExpression).Nodup ↔
        (f.clientParameters.map fun p => accessed p.name).Nodup)) ∧
    ((∀ f ∈ s.functions, ∀ g ∈ s.functions, f.method = .get → g.method = .get →
        ∀ params params' : Text → α, f.cacheKey params = g.cacheKey params' →
          f = g ∧ ∀ p ∈ f.clientParameters, params p.name = params' p.name) ↔
      ∀ f ∈ s.functions, f.method = .get → ∀ p ∈ f.clientParameters,
        ∀ word, IsIdentifier word → p.name ≠ word ++ [.char '\n']) := by
  refine ⟨pairwise_keyTexts_head h, fun f => ⟨f.keyTexts_eq, f.nodup_keyTexts_iff,
    f.nodup_readExpression_iff⟩, ?_⟩
  simp only [← accessed_eq_self_iff]
  constructor
  · intro hshared f hf hget
    refine (f.cacheKey_injective_iff (α := α)).mp ?_
    intro params params' hkey
    exact (hshared f hf f hf hget hget params params' hkey).2
  · intro hnames f hf g hg hget _ params params' hkey
    have hname : f.name = g.name := by
      have hhead := congrArg List.head? hkey
      rw [f.cacheKey_eq, g.cacheKey_eq] at hhead
      simpa using hhead
    have hhooks := (s.distinct_iff.mpr h).hooks
    obtain rfl := List.inj_on_of_nodup_map hhooks hf hg (congrArg Name.hook hname)
    exact ⟨rfl, f.cacheKey_injective_iff.mpr (hnames f hf hget) params params' hkey⟩

/-- Names that go into a key with and without quotes. -/
def readers : Spec :=
  ⟨[], [.reader "find pets" ["page", "owner's", "1st\n"], .reader "find" ["page"]]⟩

theorem queryKeys_apart_readers :
    readers.collisions = [] ∧
    (readers.functions.map (·.keyTexts)) =
      [["'find pets'", "params.page", "params['owner\\'s']", "params['1st\\n']"].map Text.ofString,
        ["'find'", "params.page"].map Text.ofString] ∧
    ∀ f ∈ readers.functions, ∀ g ∈ readers.functions, ∀ params params' : Text → Bool,
      f.cacheKey params = g.cacheKey params' →
        f = g ∧ ∀ p ∈ f.clientParameters, params p.name = params' p.name := by
  have hnone : readers.collisions = [] := by decide
  obtain ⟨-, -, hshared⟩ := queryKeys_apart (α := Bool) hnone
  have hget : ∀ f ∈ readers.functions, f.method = .get := by decide
  have hnames : ∀ f ∈ readers.functions, ∀ p ∈ f.clientParameters, accessed p.name = p.name := by
    decide
  refine ⟨hnone, by decide, fun f hf g hg => hshared.mpr ?_ f hf g hg (hget f hf) (hget g hg)⟩
  exact fun f hf _ p hp => accessed_eq_self_iff.mp (hnames f hf p hp)

/-- Of a name with a line feed behind it the key reads what stands before, whatever the value. -/
theorem cacheKey_not_injective_reader :
    (Spec.mk [] [.reader "find" ["a", "a\n"]]).collisions = [] ∧
    ((Endpoint.reader "find" ["a", "a\n"]).clientParameters.map (·.name)).Nodup ∧
    (Endpoint.reader "find" ["a", "a\n"]).keyTexts =
      ["'find'", "params.a", "params.a\n"].map Text.ofString ∧
    ¬ ((Endpoint.reader "find" ["a", "a\n"]).keyTexts.tail.map readExpression).Nodup ∧
    ∃ params params' : Text → Bool,
      (Endpoint.reader "find" ["a", "a\n"]).cacheKey params =
        (Endpoint.reader "find" ["a", "a\n"]).cacheKey params' ∧
      params (Text.ofString "a\n") ≠ params' (Text.ofString "a\n") := by
  refine ⟨by decide, by decide, by decide, by decide, fun _ => true,
    fun n => n != Text.ofString "a\n", ?_, by decide⟩
  rw [Endpoint.cacheKey_eq_iff]
  decide

end Spec
end ApiScaffold
