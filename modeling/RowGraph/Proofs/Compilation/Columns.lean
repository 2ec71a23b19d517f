import RowGraph.Proofs.Compilation.Shape
import RowGraph.Proofs.Schema.History

/-!
The columns that compiled conditions read.

Paths end at columns that a database has: where the parameters of a scope were made from
declarations, so that each has its key column and a column for each of its references, a condition
compiled in the scope reads nothing else.
-/

namespace RowGraph

/-- The parameter has a column of that name. -/
def Parameters.HasColumn (ps : Parameters) (place : String × String) : Prop :=
  ∃ d, ps.find? place.1 = some d ∧ place.2 ∈ d.columns.map Column.name

theorem Descriptor.mem_names_of_columnAt? {c : Catalogue} {d : Descriptor} (hd : c.Describes d)
    {path : List String} {column : String} (h : d.columnAt? path = some column) :
    column ∈ d.columns.map Column.name := by
  obtain ⟨registered, hd⟩ := hd
  match path, h with
  | [], h =>
    cases h
    exact List.mem_map_of_mem (keyColumn_mem (Catalogue.hasKey_resolve hd))
  | [member], h => exact Catalogue.mem_names_of_storage? hd h
  | [navigation, key], h =>
    change (d.reference? navigation).map (·.column) = some column at h
    rw [Option.map_eq_some_iff] at h
    obtain ⟨r, hr, rfl⟩ := h
    exact Catalogue.reference_mem_names hd (List.mem_of_find?_eq_some hr)

namespace Scope

variable {c : Catalogue} {s : Scope}

theorem hasColumn_operand (described : ∀ entry ∈ s.params.entries, c.Describes entry.2) {e : Expr}
    {o : Operand} (h : s.operand e = .ok o) :
    ∀ place ∈ o.condition.columns, s.params.HasColumn place := by
  rcases operand_eq_ok h with ⟨m, rfl, hm⟩ | ⟨v, rfl, rfl⟩
  · obtain ⟨param, d, column, -, hd, hpath, hcolumn, -⟩ := memberOperand_eq_ok hm
    intro place hplace
    rw [hcolumn.columns_eq, List.mem_singleton] at hplace
    subst hplace
    exact ⟨d, hd, d.mem_names_of_columnAt? (described _ (Keyed.mem_of_find? hd)) hpath⟩
  · exact fun place hplace => absurd hplace List.not_mem_nil

theorem hasColumn_compile (described : ∀ entry ∈ s.params.entries, c.Describes entry.2) {e : Expr}
    {condition : Condition} (h : s.compile e = .ok condition) :
    ∀ place ∈ condition.columns, s.params.HasColumn place := by
  have hcompiled := compiled_compile h
  clear h
  induction hcompiled with
  | connective hop hlhs hrhs ihl ihr => exact List.forall_mem_append.mpr ⟨ihl, ihr⟩
  | comparison hop ho hlhs ho' hrhs =>
    rw [Condition.columns, hlhs.columns_eq, hrhs.columns_eq]
    exact List.forall_mem_append.mpr
      ⟨hasColumn_operand described ho, hasColumn_operand described ho'⟩
  | membership ho hitem hflat =>
    rw [columns_contains hitem]
    exact hasColumn_operand described ho

end Scope
end RowGraph
