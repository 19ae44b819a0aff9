import ApiScaffold.Text.Basic

namespace ApiScaffold

/-- Values under text keys, in the order in which the keys were first put. -/
abbrev Assoc (α : Type) := List (Text × α)

namespace Assoc
variable {α : Type}

/-- A key that is there keeps its place and takes the new value. -/
def put (key : Text) (value : α) : Assoc α → Assoc α
  | [] => [(key, value)]
  | (k, v) :: rest => if k = key then (k, value) :: rest else (k, v) :: put key value rest

def putAll (known new : Assoc α) : Assoc α :=
  new.foldl (fun known e => put e.1 e.2 known) known

def ofList (entries : List (Text × α)) : Assoc α :=
  putAll [] entries

def get? (key : Text) : Assoc α → Option α
  | [] => none
  | (k, v) :: rest => if k = key then some v else get? key rest

end Assoc
end ApiScaffold
