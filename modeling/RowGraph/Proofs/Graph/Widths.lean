import RowGraph.Proofs.Comparison
import RowGraph.Proofs.Graph.RowChange
import RowGraph.Proofs.Sql.Erasure

/-!
The width of an integer is invisible to hydration.

Databases hand integers back in the widest type, while declarations and entities use narrower ones.
Neither the key of a row nor the pairing of two rows depends on the width of an integer, so a result
may hold its integers in any widths: the graph that is made of it is the same, integer by integer.
-/

namespace RowGraph

/-! ## Widening -/

mutual

/-- The value with its integers in the widest type, those in lists included. -/
def Value.widened : Value → Value
  | .scalar v => .scalar v.written
  | .list items => .list (Value.widenedAll items)

def Value.widenedAll : List Value → List Value
  | [] => []
  | v :: rest => v.widened :: Value.widenedAll rest

end

def Row.widened (row : Row) : Row :=
  row.mapValues Value.widened

/-- A record and all that is below it with integers in the widest type. -/
def Record.widened (r : Record) : Record :=
  r.mapRows fun _ => Row.widened

/-- Widening keeps a value, or else an integer's number. -/
theorem Scalar.sameNumber_written (v : Scalar) :
    Value.SameNumber (.scalar v.written) (.scalar v) := by
  cases v with
  | i16 n => exact Or.inr ⟨n.toInt, congrArg some (Int16.toInt_toInt64 n), rfl⟩
  | i32 n => exact Or.inr ⟨n.toInt, congrArg some (Int32.toInt_toInt64 n), rfl⟩
  | _ => exact Value.SameNumber.refl _

theorem Scalar.toKey?_written (v : Scalar) : v.written.toKey? = v.toKey? := by
  cases v with
  | i16 n => exact congrArg (fun k => some (Key.int k)) (Int16.toInt_toInt64 n)
  | i32 n => exact congrArg (fun k => some (Key.int k)) (Int32.toInt_toInt64 n)
  | _ => rfl

namespace Value

theorem toKey?_widened (v : Value) : v.widened.toKey? = v.toKey? := by
  cases v with
  | list items => rfl
  | scalar v => exact v.toKey?_written

theorem satisfies_widened (op : Operator) (a b : Value) :
    a.widened.satisfies op b.widened = a.satisfies op b := by
  cases a with
  | list as => cases b <;> simp [satisfies_eq_any, widened, compare?]
  | scalar a =>
    cases b with
    | list bs => simp [satisfies_eq_any, widened, compare?]
    | scalar b => exact (a.sameNumber_written).satisfies b.sameNumber_written op

end Value

namespace Graph

/-- Widening the integers of a result widens those of its graph.  Hydrating the widened rows fails
exactly if hydrating the rows does, with the same error, and otherwise gives the same records in the
same order at every depth, with their integers widened. -/
theorem hydrate_widened (s : Select) (t : Sql.AliasTable) (rows : List Row) :
    hydrate s t (rows.map Row.widened) = List.map Record.widened <$> hydrate s t rows :=
  hydrate_mapValues Value.toKey?_widened (Value.satisfies_widened .eq) s t rows

end Graph
end RowGraph
