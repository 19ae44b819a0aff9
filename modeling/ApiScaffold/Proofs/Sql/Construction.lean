import ApiScaffold.Proofs.Checked
import ApiScaffold.Proofs.Name.Cleaned
import ApiScaffold.Proofs.Sql.Letters
import ApiScaffold.Sql.Schema
import ApiScaffold.Sql.Validation

namespace ApiScaffold
open Text Identifier

namespace Sql

/-- A name, a type or a comment as it is handed over. -/
def Slot.text (t : Text) : Slot :=
  .plain (.str t)

def Slot.switch (b : Bool) : Slot :=
  .plain (.bool b)

/-- Nodes that were built before are parts of others as they are. -/
def Slot.nodes {α : Type} (node : α → Node) (as : List α) : Slot :=
  .several (as.map fun a => .built (node a))

namespace Node

def form : Node → Form
  | .predicate _ => .predicate
  | .statement (.comment _) => .comment
  | .statement (.select _ _) => .select
  | .statement (.insert _ _) => .insert
  | .statement (.delete _ _ _) => .delete
  | .column _ => .column
  | .table _ => .table
  | .argument _ => .argument
  | .function _ => .function

/-- The fields that a node is built from. -/
def fields : Node → Fields
  | .predicate p => [("column", .text p.column), ("placeholder", .text p.argument)]
  | .statement (.comment text) => [("text", .text text)]
  | .statement (.select name filter) =>
    [("table", .text name), ("where", .nodes .predicate filter)]
  | .statement (.insert name returning) =>
    [("table", .text name), ("returning", .switch returning)]
  | .statement (.delete name filter returning) =>
    [("table", .text name), ("where", .nodes .predicate filter), ("returning", .switch returning)]
  | .column c => [("name", .text c.name), ("type", .text c.type), ("not_null", .switch c.notNull)]
  | .table t =>
    [("name", .text t.name), ("columns", .nodes .column t.columns),
      ("primary_key", .several (t.primaryKey.map .text))]
  | .argument a => [("name", .text a.name), ("type", .text a.type)]
  | .function f =>
    [("name", .text f.name), ("args", .nodes .argument f.arguments), ("returns", .text f.returns),
      ("body", .nodes .statement f.body)]

/-- Every name and every type in the node passes its test. -/
def isSound : Node → Bool
  | .predicate p => p.isSound
  | .statement s => s.isSound
  | .column c => c.isSound
  | .table t => t.isSound
  | .argument a => a.isSound
  | .function f => f.isSound

end Node

namespace Slot
variable {α : Type} {fields : Fields} {name key t : Text} {slot : Slot}

theorem field_eq_valid {default : Option α} {check : Slot → Checked α} {a : α}
    (hf : fields.find? (·.1 == name) = some (key, slot)) (hc : check slot = .valid a) :
    field fields name default check = .valid a := by
  simp only [field, hf, hc, Checked.under]

theorem identifier_text (h : accepts t = true) : identifier (text t) = .valid t := by
  simp only [identifier, text, testedText, h, if_true]

theorem sqlType_text (h : acceptsType t = true) : sqlType (text t) = .valid t := by
  simp only [sqlType, text, testedText, h, if_true]

theorem each_several {make : α → Slot} {check : Slot → Checked α} {as : List α}
    (h : ∀ a ∈ as, check (make a) = .valid a) :
    each check (.several (as.map make)) = .valid as := by
  have hfrom : ∀ n, eachFrom check n (as.map make) = .valid as := by
    induction as with
    | nil =>
      intro n
      rfl
    | cons a as ih =>
      intro n
      have ha : (check (make a)).under (.index n) = .valid a := by
        rw [h a List.mem_cons_self]
        rfl
      have has := ih (fun b hb => h b (List.mem_cons_of_mem _ hb)) (n + 1)
      exact Checked.seq_eq_valid (Checked.map_eq_valid ha) has
  exact hfrom 0

end Slot

open Slot Checked

theorem Predicate.check_fields {p : Predicate} (h : p.isSound = true) :
    Predicate.check (Node.predicate p).fields = .valid p := by
  obtain ⟨hc, ha⟩ := Bool.and_eq_true_iff.mp h
  refine seq_eq_valid (map_eq_valid ?_) ?_
  · exact field_eq_valid rfl (identifier_text hc)
  · exact field_eq_valid rfl (identifier_text ha)

theorem ColumnDefinition.check_fields {c : ColumnDefinition} (h : c.isSound = true) :
    ColumnDefinition.check (Node.column c).fields = .valid c := by
  obtain ⟨hn, ht⟩ := Bool.and_eq_true_iff.mp h
  refine seq_eq_valid (seq_eq_valid (map_eq_valid ?_) ?_) ?_
  · exact field_eq_valid rfl (identifier_text hn)
  · exact field_eq_valid rfl (sqlType_text ht)
  · exact field_eq_valid rfl rfl

theorem Typed.check_fields {a : Typed} (h : a.isSound = true) :
    Typed.check (Node.argument a).fields = .valid a := by
  obtain ⟨hn, ht⟩ := Bool.and_eq_true_iff.mp h
  refine seq_eq_valid (map_eq_valid ?_) ?_
  · exact field_eq_valid rfl (identifier_text hn)
  · exact field_eq_valid rfl (sqlType_text ht)

theorem TableDefinition.check_fields {t : TableDefinition} (h : t.isSound = true) :
    TableDefinition.check (Node.table t).fields = .valid t := by
  simp only [TableDefinition.isSound, Bool.and_eq_true, List.all_eq_true] at h
  obtain ⟨⟨hn, -⟩, hk⟩ := h
  refine seq_eq_valid (seq_eq_valid (map_eq_valid ?_) ?_) ?_
  · exact field_eq_valid rfl (identifier_text hn)
  · exact field_eq_valid rfl (each_several fun c _ => rfl)
  · exact field_eq_valid rfl (each_several fun k hm => identifier_text (hk k hm))

theorem FunctionDefinition.check_fields {f : FunctionDefinition} (h : f.isSound = true) :
    FunctionDefinition.check (Node.function f).fields = .valid f := by
  simp only [FunctionDefinition.isSound, Bool.and_eq_true] at h
  obtain ⟨⟨⟨hn, -⟩, hr⟩, -⟩ := h
  refine seq_eq_valid (seq_eq_valid (seq_eq_valid (map_eq_valid ?_) ?_) ?_) ?_
  · exact field_eq_valid rfl (identifier_text hn)
  · exact field_eq_valid rfl (each_several fun a _ => rfl)
  · exact field_eq_valid rfl (sqlType_text hr)
  · exact field_eq_valid rfl (each_several fun s _ => rfl)

theorem Node.check_statement_fields {s : Statement} (h : s.isSound = true) :
    check (statement s).fields (statement s).form = .valid (statement s) := by
  cases s with
  | comment text =>
    refine map_eq_valid (map_eq_valid ?_)
    exact field_eq_valid rfl rfl
  | select name filter =>
    have hn := (Bool.and_eq_true_iff.mp h).1
    refine map_eq_valid (seq_eq_valid (map_eq_valid ?_) ?_)
    · exact field_eq_valid rfl (identifier_text hn)
    · exact field_eq_valid rfl (each_several fun p _ => rfl)
  | insert name returning =>
    refine map_eq_valid (seq_eq_valid (map_eq_valid ?_) ?_)
    · exact field_eq_valid rfl (identifier_text h)
    · exact field_eq_valid rfl rfl
  | delete name filter returning =>
    have hn := (Bool.and_eq_true_iff.mp h).1
    refine map_eq_valid (seq_eq_valid (seq_eq_valid (map_eq_valid ?_) ?_) ?_)
    · exact field_eq_valid rfl (identifier_text hn)
    · exact field_eq_valid rfl (each_several fun p _ => rfl)
    · exact field_eq_valid rfl rfl

/-- A sound node passes every check of its builder, which gives back this very node. -/
theorem Node.check_fields {n : Node} (h : n.isSound = true) :
    Node.check n.fields n.form = .valid n := by
  cases n with
  | predicate p => exact map_eq_valid (Predicate.check_fields h)
  | statement s => exact check_statement_fields h
  | column c => exact map_eq_valid (ColumnDefinition.check_fields h)
  | table t => exact map_eq_valid (TableDefinition.check_fields h)
  | argument a => exact map_eq_valid (Typed.check_fields h)
  | function f => exact map_eq_valid (FunctionDefinition.check_fields h)

end Sql
end ApiScaffold
