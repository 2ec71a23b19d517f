import RowGraph.Error.Basic
import RowGraph.Keyed
import RowGraph.Schema.Descriptor

/-!
The parameters of a statement: names bound to the models it reads.

Names are distinct and stay in the order of registration.  A name that is taken gets the least number
that makes it free, so registering never rebinds a name.  One parameter may be the default: the root
of the statement.
-/

namespace RowGraph

structure Parameters where
  entries : Keyed String Descriptor
  default : Option String

namespace Parameters

def empty : Parameters := ⟨[], none⟩

/-- The name of a parameter that is registered without one. -/
def defaultName : String := "x"

def names (ps : Parameters) : List String :=
  ps.entries.keys

def size (ps : Parameters) : Nat :=
  ps.entries.length

def isEmpty (ps : Parameters) : Bool :=
  ps.entries.isEmpty

def find? (ps : Parameters) (name : String) : Option Descriptor :=
  ps.entries.find? name

def contains (ps : Parameters) (name : String) : Bool :=
  ps.entries.has name

def default? (ps : Parameters) : Option (String × Descriptor) :=
  ps.default.bind fun name => (ps.find? name).map fun d => (name, d)

def table (ps : Parameters) (name : String) : String :=
  match ps.find? name with
  | some d => d.table
  | none => ""

/-- The base name when it is free, and otherwise the base followed by the least number that makes it
so.  Of one candidate more than there are taken names, one is free. -/
def freshName (base : String) (taken : List String) : String :=
  if base ∈ taken then
    let candidates := (List.range (taken.length + 1)).map fun k => base ++ toString (k + 1)
    (candidates.find? fun name => !taken.contains name).getD base
  else base

/-- The parameters with one more, and the name it was given.  A second default is refused. -/
def register (ps : Parameters) (name : Option String) (d : Descriptor) (isDefault : Bool) :
    Outcome (String × Parameters) :=
  let base := name.getD defaultName
  match isDefault, ps.default? with
  | true, some (existing, _) => .error (.adhoc (.defaultTaken existing base))
  | _, _ =>
    let given := freshName base ps.names
    .ok (given, ⟨ps.entries ++ [(given, d)], if isDefault then some given else ps.default⟩)

def root (name : Option String) (d : Descriptor) : Parameters :=
  let given := name.getD defaultName
  ⟨[(given, d)], some given⟩

theorem register_empty (name : Option String) (d : Descriptor) :
    empty.register name d true = .ok (name.getD defaultName, root name d) := by
  simp [register, empty, default?, names, freshName, root]

end Parameters
end RowGraph
