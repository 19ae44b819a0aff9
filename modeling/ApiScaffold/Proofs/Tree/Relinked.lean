import ApiScaffold.Proofs.Document.Pointer
import ApiScaffold.Proofs.Document.Steps

namespace ApiScaffold

namespace Tree

/-- The value under a key, where a text under `$ref` is a reference. -/
def redirect (f : Text → Text) : Tree → Tree → Tree
  | .str name, .str r => .str (if name = "$ref" then f r else r)
  | _, v => v

mutual

/-- The value with every reference in it replaced. -/
def relinked (f : Text → Text) : Tree → Tree
  | list items => list (itemsRelinked f items)
  | tuple items => tuple (itemsRelinked f items)
  | set members => set (itemsRelinked f members)
  | map entries => map (entriesRelinked f entries)
  | recurring label t => recurring label (relinked f t)
  | t => t

def itemsRelinked (f : Text → Text) : List Tree → List Tree
  | [] => []
  | item :: rest => relinked f item :: itemsRelinked f rest

def entriesRelinked (f : Text → Text) : Entries → Entries
  | [] => []
  | (key, value) :: rest => (key, redirect f key (relinked f value)) :: entriesRelinked f rest

end

variable {f : Text → Text} {t key v : Tree} {name : Text}

theorem itemsRelinked_eq_map (items : List Tree) :
    itemsRelinked f items = items.map (relinked f) := by
  induction items with
  | nil => rfl
  | cons item rest ih => rw [itemsRelinked, ih, List.map_cons]

theorem entriesRelinked_eq_map (entries : Entries) :
    entriesRelinked f entries = entries.map fun e => (e.1, redirect f e.1 (relinked f e.2)) := by
  induction entries with
  | nil => rfl
  | cons e rest ih =>
    obtain ⟨key, value⟩ := e
    rw [entriesRelinked, ih, List.map_cons]

/-- Only a text under `$ref` is redirected. -/
theorem redirect_of_not_text (h : ∀ r, v ≠ .str r) : redirect f key v = v := by
  unfold redirect
  split
  · rename_i r
    exact absurd rfl (h r)
  · rfl

theorem redirect_of_ne (h : name ≠ "$ref") : redirect f (.str name) v = v := by
  unfold redirect
  split
  · rename_i he
    obtain rfl := Tree.str.inj he
    rw [if_neg h]
  · rfl

theorem relinked_plain : (relinked f t).plain = relinked f t.plain := by
  induction t using Tree.plain.induct with
  | case1 n t ih => rw [relinked, plain, plain, ih]
  | case2 t h =>
    rw [plain_eq_self h]
    cases t with
    | recurring n s => exact absurd rfl (h n s)
    | _ => rfl

theorem map?_relinked : (relinked f t).map? = t.map?.map (entriesRelinked f) := by
  unfold map?
  rw [relinked_plain]
  cases t.plain <;> rfl

theorem list?_relinked : (relinked f t).list? = t.list?.map (itemsRelinked f) := by
  unfold list?
  rw [relinked_plain]
  cases t.plain <;> rfl

theorem items_relinked : (relinked f t).items = t.items.map (relinked f) := by
  unfold items
  rw [list?_relinked]
  cases t.list? with
  | none => rfl
  | some items => exact itemsRelinked_eq_map items

theorem find?_relinked (key : Tree) (entries : Entries) (h : ∀ k : Tree, k.sameKey key → k = key) :
    find? key (entriesRelinked f entries) =
      (find? key entries).map fun v => redirect f key (relinked f v) := by
  induction entries with
  | nil => rfl
  | cons e rest ih =>
    obtain ⟨k, v⟩ := e
    rw [entriesRelinked, find?, find?]
    split
    · rename_i hk
      rw [h k hk]
      rfl
    · exact ih

theorem get?_relinked (t : Tree) (name : Text) :
    (relinked f t).get? name =
      (t.get? name).map fun v => redirect f (.str name) (relinked f v) := by
  unfold get?
  rw [map?_relinked]
  cases t.map? with
  | none => rfl
  | some entries => exact find?_relinked _ entries fun k hk => eq_of_sameKey_str hk

theorem get?_relinked_of_ne (t : Tree) (h : name ≠ "$ref") :
    (relinked f t).get? name = (t.get? name).map (relinked f) := by
  rw [get?_relinked]
  congr 1
  funext v
  exact redirect_of_ne h

theorem get_relinked (t : Tree) (h : name ≠ "$ref") :
    (relinked f t).get name = relinked f (t.get name) := by
  unfold get
  rw [get?_relinked_of_ne t h]
  cases t.get? name <;> rfl

theorem str?_relinked : (relinked f t).str? = t.str? := by
  cases t <;> rfl

theorem isNull_relinked : (relinked f t).isNull = t.isNull := by
  cases t <;> rfl

theorem isTruthy_relinked : (relinked f t).isTruthy = t.isTruthy := by
  induction t using Tree.plain.induct with
  | case1 n t ih => rw [relinked, isTruthy, isTruthy, ih]
  | case2 t h =>
    cases t with
    | recurring n s => exact absurd rfl (h n s)
    | list items => cases items <;> rfl
    | tuple items => cases items <;> rfl
    | set items => cases items <;> rfl
    | map entries => cases entries <;> rfl
    | _ => rfl

theorem relinked_ne_text (h : ∀ r, t ≠ .str r) : ∀ r, relinked f t ≠ .str r := by
  intro r he
  cases t with
  | str s => exact h s rfl
  | _ => cases he

end Tree

namespace Document
open ApiScaffold.Tree
variable {f : Text → Text} {t : Tree} {r : Text}

theorem reference?_relinked (t : Tree) :
    reference? (relinked f t) =
      (reference? t).map fun v => redirect f (.str "$ref") (relinked f v) :=
  get?_relinked t _

theorem reference?_relinked_text (h : reference? t = some (.str r)) :
    reference? (relinked f t) = some (.str (f r)) := by
  rw [reference?_relinked, h]
  rfl

theorem label?_relinked (t : Tree) :
    label? (relinked f t) = (label? t).map fun a => (a.1, relinked f a.2) := by
  cases t <;> rfl

end Document
end ApiScaffold
