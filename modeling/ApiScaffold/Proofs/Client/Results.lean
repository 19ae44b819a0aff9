import ApiScaffold.Proofs.Client.HookScope

namespace ApiScaffold
open Text Client

/-- Only an entity can have the type that stands for no result. -/
theorem DataType.client_eq_void_iff (t : DataType) :
    t.client = "void" ↔ ∃ e, t = .reference e ∧ Identifier.clean "any" e = "void" := by
  cases t with
  | primitive name format =>
    have hvoid : Text.ofString (clientPrimitive name) ≠ "void" := by
      unfold clientPrimitive
      repeat' split
      all_goals decide
    simpa [client] using hvoid
  | array items =>
    have hvoid : items.client ++ Text.ofString "[]" ≠ "void" := by
      intro h
      have hmarker : CodePoint.char ']' ∈ ofString "void" :=
        h ▸ List.mem_append_right _ (by decide)
      exact absurd hmarker (by decide)
    simpa [client] using hvoid
  | reference name => simp [client]
  | object properties =>
    have hvoid : Text.ofString "Record<string, any>" ≠ "void" := by decide
    simpa [client] using hvoid

namespace Client

/-- What the function that sends the request ends with: the statement three lines before the end of
the module, without its indentation. -/
def Code.lastStatement (c : Code) : Text :=
  (c.lines.reverse[3]?.getD []).dropWhile (· == .char ' ')

theorem dropWhile_indent {level : Int} {t : Text} (h : t.head? ≠ some (.char ' ')) :
    (Code.indent level ++ t).dropWhile (· == .char ' ') = t := by
  rw [Code.indent]
  induction 2 * level.toNat with
  | zero => cases t <;> simp_all
  | succ n ih => simpa [List.replicate_succ] using ih

namespace Hook
variable (h : Hook)

def resultStatement : Text :=
  if h.returns then "return (await response.json()) as " ++ h.resultType ++ ";"
  else if h.isRead then "return null;"
  else "return undefined;"

theorem head?_resultStatement : h.resultStatement.head? = some (.char 'r') := by
  unfold resultStatement
  repeat' split
  all_goals rfl

theorem lastStatement_code (config : Config) :
    (h.code config).lastStatement = h.resultStatement := by
  have hne : h.resultStatement.isEmpty = false := by
    rw [List.isEmpty_eq_false_iff]
    intro hnil
    cases hnil ▸ h.head?_resultStatement
  have hstart : h.resultStatement.head? ≠ some (.char ' ') := by
    rw [head?_resultStatement]
    decide
  obtain ⟨c, hcode⟩ : ∃ c : Code, h.code config =
      (((c.line h.resultStatement).leave "\x7d,").leave "\x7d);").leave "\x7d" :=
    ⟨_, rfl⟩
  have hlast : (h.code config).lines.reverse[3]? =
      some (Code.indent c.level ++ h.resultStatement) := by
    simp [hcode, Code.leave, Code.line, hne]
  rw [Code.lastStatement, hlast]
  exact dropWhile_indent hstart

end Hook

end Client

namespace Endpoint
variable {f : Endpoint} {policy : Name.Policy}

/-- The hook gives its caller what the response holds. -/
def Deserializes (policy : Name.Policy) (config : Config) (f : Endpoint) : Prop :=
  Text.ofString "return (await response.json()) as " <+:
    ((f.hook policy).code config).lastStatement

theorem deserializes_iff (config : Config) :
    f.Deserializes policy config ↔ (nonEmpty? f.responseBody).isSome = true := by
  have hreturns : (f.hook policy).returns = (nonEmpty? f.responseBody).isSome := rfl
  rw [Deserializes, Hook.lastStatement_code, Hook.resultStatement, hreturns]
  split
  · rename_i hsome
    rw [hsome, List.append_assoc]
    exact iff_of_true (List.prefix_append _ _) rfl
  · rename_i hnone
    refine iff_of_false ?_ hnone
    split <;> decide

/-- The hook of a function that changes something has the result `void` when it gives nothing back,
and also when what it gives back is an entity whose name cleans up to this word. -/
theorem resultType_eq_void_iff (hm : f.method ≠ .get) :
    (f.hook policy).resultType = "void" ↔ nonEmpty? f.responseBody = none ∨
      ∃ body e, f.responseBody = some body ∧ DataType.ofName policy body = .reference e ∧
        Identifier.clean "any" e = "void" := by
  change f.resultType policy = "void" ↔ _
  unfold resultType
  cases hbody : nonEmpty? f.responseBody with
  | none => simp [hm]
  | some body =>
    have hresponse := (nonEmpty?_eq_some_iff.mp hbody).1
    simp [DataType.client_eq_void_iff, hresponse]

end Endpoint
end ApiScaffold
