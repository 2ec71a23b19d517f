import RowGraph.Text.Fold

/-!
Column aliases: short names for the columns that a selection reads.

The table gives each column of each parameter the number of its place in the order of first use.
Asking again gives the same number, and nothing is ever taken back, so a table can serve one statement
after another.  Parameters are told apart by case, columns are not.
-/

namespace RowGraph
namespace Sql

/-- The parameters and folded columns that have aliases, in order. -/
structure AliasTable where
  columns : List (String × String)
  deriving DecidableEq

def aliasName (n : Nat) : String :=
  "_c" ++ toString n

namespace AliasTable

def empty : AliasTable := ⟨[]⟩

def size (t : AliasTable) : Nat :=
  t.columns.length

def isEmpty (t : AliasTable) : Bool :=
  t.columns.isEmpty

def index? (t : AliasTable) (param column : String) : Option Nat :=
  t.columns.idxOf? (param, Text.fold column)

/-- The number of a column, given on first use. -/
def assign (t : AliasTable) (param column : String) : Nat × AliasTable :=
  match t.index? param column with
  | some n => (n, t)
  | none => (t.size, ⟨t.columns ++ [(param, Text.fold column)]⟩)

def assignAll (t : AliasTable) : List (String × String) → List Nat × AliasTable
  | [] => ([], t)
  | (param, column) :: rest =>
    let (n, t) := t.assign param column
    let (ns, t) := t.assignAll rest
    (n :: ns, t)

def get? (t : AliasTable) (param column : String) : Option String :=
  (t.index? param column).map aliasName

/-! ## Reading aliases -/

/-- A decimal number: digits, perhaps after a plus sign. -/
def number? (cs : List Char) : Option Nat :=
  let digits := match cs with
    | '+' :: rest => rest
    | _ => cs
  if digits.isEmpty || !digits.all Char.isDigit then none
  else some (digits.foldl (fun n c => 10 * n + (c.toNat - '0'.toNat)) 0)

/-- The parameter and column that an alias stands for.  The mark of an alias may be a capital. -/
def resolve? (t : AliasTable) (name : String) : Option (String × String) :=
  match name.toList with
  | '_' :: 'c' :: rest => (number? rest).bind (t.columns[·]?)
  | '_' :: 'C' :: rest => (number? rest).bind (t.columns[·]?)
  | _ => none

def entries (t : AliasTable) : List (String × String × String) :=
  t.columns.zipIdx.map fun (column, n) => (aliasName n, column)

end AliasTable
end Sql
end RowGraph
