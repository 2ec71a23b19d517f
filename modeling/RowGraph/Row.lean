import RowGraph.Keyed
import RowGraph.Text.Fold
import RowGraph.Value.Key

/-!
Rows: values by column name, in order, names being compared without regard to case.

A row keeps every name in its folded form and each name once, so that a lookup meets one entry at
most however the name is spelled.
-/

namespace RowGraph

structure Row where
  entries : Keyed String Value
  folded : ∀ name ∈ entries.keys, Text.fold name = name
  distinct : entries.keys.Nodup

namespace Row

def empty : Row := ⟨[], by simp, by simp⟩

instance : Inhabited Row := ⟨empty⟩

/-- The row with a value under a name.  A name that is present keeps its place. -/
def insert (row : Row) (name : String) (value : Value) : Row where
  entries := row.entries.put (Text.fold name) value
  folded := by
    intro k hk
    rw [Keyed.mem_keys_put] at hk
    rcases hk with rfl | hk
    · exact Text.fold_fold name
    · exact row.folded k hk
  distinct := Keyed.nodup_keys_put row.distinct

def erase (row : Row) (name : String) : Row where
  entries := row.entries.drop (Text.fold name)
  folded := fun k hk => row.folded k ((Keyed.sublist_keys_drop _ _).subset hk)
  distinct := Keyed.nodup_keys_drop row.distinct

/-- The value under a name.  A name spelled as it is stored is found without folding it. -/
def get? (row : Row) (name : String) : Option Value :=
  match row.entries.find? name with
  | some value => some value
  | none => row.entries.find? (Text.fold name)

def contains (row : Row) (name : String) : Bool :=
  (row.get? name).isSome

/-- The value under a name, null when the row has none. -/
def get (row : Row) (name : String) : Value :=
  (row.get? name).getD .null

def keys (row : Row) : List String :=
  row.entries.keys

def size (row : Row) : Nat :=
  row.entries.length

def isEmpty (row : Row) : Bool :=
  row.entries.isEmpty

def ofList (pairs : List (String × Value)) : Row :=
  pairs.foldl (fun row pair => row.insert pair.1 pair.2) empty

/-- A change of what stands under one name. -/
inductive Edit where
  | insert (name : String) (value : Value)
  | remove (name : String)

/-- The value that was under the name, if there was one, and the row with the change. -/
def edit (row : Row) : Edit → Option Value × Row
  | .insert name value => (row.entries.find? (Text.fold name), row.insert name value)
  | .remove name => (row.entries.find? (Text.fold name), row.erase name)

/-- The rows hold the same data under the same names, in whatever order. -/
def same (a b : Row) : Bool :=
  a.size == b.size && a.entries.all fun (name, value) =>
    match b.entries.find? name with
    | some other => value.same other
    | none => false

/-! ## Lookup -/

/-- The spelling of a name does not matter to a lookup. -/
theorem get?_eq (row : Row) (name : String) :
    row.get? name = row.entries.find? (Text.fold name) := by
  rw [get?]
  split
  next value h =>
    have hm := row.folded name
      (by rw [← Keyed.has_iff, Keyed.has, h]; rfl)
    rw [hm, h]
  next => rfl

theorem get?_fold (row : Row) (name : String) : row.get? (Text.fold name) = row.get? name := by
  rw [get?_eq, get?_eq, Text.fold_fold]

theorem get?_insert_self (row : Row) (name : String) (value : Value) :
    (row.insert name value).get? name = some value := by
  rw [get?_eq]
  exact Keyed.find?_put_self _ _ _

theorem get?_insert_of_ne {row : Row} {name other : String}
    (h : Text.fold other ≠ Text.fold name) (value : Value) :
    (row.insert name value).get? other = row.get? other := by
  rw [get?_eq, get?_eq]
  exact Keyed.find?_put_of_ne h _ _

end Row

/-! ## Rows read together -/

/-- Rows by the name of the parameter they belong to.  The first row of a name is the one read. -/
abbrev Assignment := Keyed String Row

/-- What a condition reads from: the value of a column of a parameter. -/
abbrev Input := String → String → Option Value

namespace Assignment

def input (rows : Assignment) : Input := fun param column =>
  (rows.find? param).bind fun row => row.get? column

/-- Two rows read together, as a join pairs them. -/
def pair (left : String) (leftRow : Row) (right : String) (rightRow : Row) : Assignment :=
  [(left, leftRow), (right, rightRow)]

end Assignment
end RowGraph
