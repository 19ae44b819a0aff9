import ApiScaffold.Assoc
import ApiScaffold.Spec.Collision
import ApiScaffold.Tree.Shown

namespace ApiScaffold.Document

/-- Why a document is not usable as a description. A value that stands in itself is `endless` for
a reader that goes into its parts, which the limit on recursion ends; it is `looping` for one that
goes around in it, which nothing ends. For a value of finite depth there is no such limit here: it
is read to its end, however deep it is. -/
inductive Fault where
  | notObject
  | pathsNotObject
  | numberTooLong
  | endless
  | looping
  | referenceCycle (chain : List Text)
  | expansionCycle (reference : Text)
  | collisions (found : List Collision)
  deriving DecidableEq, Repr

/-- What is told of a fault. Nobody comes to tell of one that is looping. -/
def Fault.message : Fault → Text
  | notObject => "Invalid OpenAPI document: the top level must be an object"
  | pathsNotObject => "Invalid OpenAPI document: 'paths' must be an object"
  | numberTooLong =>
    "Exceeds the limit (" ++ toString Numeral.digitLimit ++
      " digits) for integer string conversion; " ++
      "use sys.set_int_max_str_digits() to increase the limit"
  | endless => "maximum recursion depth exceeded"
  | looping => ""
  | referenceCycle chain => "Reference cycle: " ++ Text.joined " -> " chain
  | expansionCycle reference => "Reference cycle through " ++ reference
  | collisions found =>
    "Generated artifact names collide:\n" ++
      Text.joined "\n" (found.map fun c => "  " ++ c.subject ++ ": " ++ c.message)

/-- A key or another value as a name. -/
def nameOf (t : Tree) : Except Fault Text :=
  match t.name? with
  | some name => .ok name
  | none => .error .numberTooLong

/-- The values under keys as names. Keys with one name are one. -/
def named (entries : Tree.Entries) : Except Fault (Assoc Tree) := do
  .ok (.ofList (← entries.mapM fun e => do .ok (← nameOf e.1, e.2)))

/-- What was passed over in a document. -/
inductive Note where
  | unresolved (reference : Text)
  | skippedPath (path : Tree)
  | droppedParameter (raw : Tree)
  | namelessParameter (raw : Tree)
  deriving Repr

def Note.message : Note → Text
  | unresolved reference => "Unresolved reference " ++ reference
  | skippedPath path => "Skipping path " ++ path.name ++ ": not an object"
  | droppedParameter raw =>
    "Dropping parameter " ++ raw.shown ++ ": reference could not be resolved"
  | namelessParameter raw => "Dropping parameter without a name: " ++ raw.shown

/-- A result and the notes that were made on the way to it. -/
structure Traced (α : Type) where
  notes : List Note
  result : Except Fault α

namespace Traced
variable {α β : Type}

/-- Notes made before a failure are kept. -/
def bind (x : Traced α) (f : α → Traced β) : Traced β :=
  match x.result with
  | .error e => ⟨x.notes, .error e⟩
  | .ok a => ⟨x.notes ++ (f a).notes, (f a).result⟩

instance : Monad Traced where
  pure a := ⟨[], .ok a⟩
  bind := bind

def fail (e : Fault) : Traced α :=
  ⟨[], .error e⟩

/-- A result without notes. -/
def lift (x : Except Fault α) : Traced α :=
  ⟨[], x⟩

instance : MonadLift (Except Fault) Traced := ⟨lift⟩

/-- The result together with where it comes from. -/
def attach : (x : Traced α) → Traced { a : α // x.result = .ok a }
  | ⟨notes, .ok a⟩ => ⟨notes, .ok ⟨a, rfl⟩⟩
  | ⟨notes, .error e⟩ => ⟨notes, .error e⟩

def note (n : Note) : Traced Unit :=
  ⟨[n], .ok ()⟩

@[simp] theorem result_pure (a : α) : (pure a : Traced α).result = .ok a := rfl

@[simp] theorem result_lift (x : Except Fault α) : (lift x).result = x := rfl

@[simp] theorem result_bind (x : Traced α) (f : α → Traced β) :
    (x >>= f).result = (x.result >>= fun a => (f a).result) := by
  change (bind x f).result = _
  unfold bind
  cases x.result <;> rfl

/-- What stands behind a result does not change it. -/
@[simp] theorem bind_attach (x : Traced α) (f : α → Traced β) :
    (x.attach >>= fun a => f a.1) = (x >>= f) := by
  obtain ⟨notes, _ | a⟩ := x <;> rfl

end Traced
end ApiScaffold.Document
