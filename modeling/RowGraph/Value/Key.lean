import RowGraph.Value.Basic

/-!
Keys: the values that can identify a row.

Two rows carry the same key exactly when their key values are equal to a database, so the width of
an integer is forgotten: a key read back as a 64-bit integer matches the 32-bit one that an entity
holds.
-/

namespace RowGraph

/-- What a row can be identified by.  Keys of different kinds are ordered by kind. -/
inductive Key where
  | bool (b : Bool)
  | int (n : Int)
  | string (s : String)
  deriving DecidableEq

namespace Key

/-- Truth values come first, then integers, then texts; within a kind the order is its own. -/
def compare : Key → Key → Ordering
  | bool a, bool b => Ord.compare a b
  | bool _, _ => .lt
  | int _, bool _ => .gt
  | int m, int n => Ord.compare m n
  | int _, string _ => .lt
  | string a, string b => Ord.compare a b
  | string _, _ => .gt

instance : Ord Key := ⟨compare⟩

def ascending (keys : List Key) : List Key :=
  (keys.mergeSort fun a b => (a.compare b).isLE).eraseDups

end Key

/-- The key that a single value stands for, if it can identify a row. -/
def Scalar.toKey? : Scalar → Option Key
  | .bool b => some (.bool b)
  | .string s => some (.string s)
  | v => v.toInt?.map .int

/-- The key that a value stands for.  Null, floating-point numbers and lists identify nothing. -/
def Value.toKey? : Value → Option Key
  | .scalar v => v.toKey?
  | .list _ => none

end RowGraph
