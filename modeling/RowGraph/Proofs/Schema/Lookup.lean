import Mathlib.Data.List.Nodup
import RowGraph.Proofs.Lists
import RowGraph.Schema.Descriptor

/-!
Columns found by name.

A database tells column names apart up to case, so a name denotes one column only where no two names
of a table fold alike.  There every lookup of a column finds that column itself.
-/

namespace RowGraph

namespace Descriptor

/-- No two columns have the same name to a database. -/
def NamesDistinct (d : Descriptor) : Prop :=
  (d.columns.map fun c => Text.fold c.name).Nodup

instance (d : Descriptor) : Decidable d.NamesDistinct := by
  unfold NamesDistinct
  infer_instance

/-- Some column is flagged as the key. -/
def HasKey (d : Descriptor) : Prop :=
  ∃ c ∈ d.columns, c.isKey = true

theorem keyColumn_mem {d : Descriptor} (h : d.HasKey) : d.keyColumn ∈ d.columns := by
  obtain ⟨c, hc, hkey⟩ := h
  rw [keyColumn]
  cases hfind : d.columns.find? (·.isKey) with
  | none =>
    rw [List.find?_eq_none] at hfind
    exact absurd hkey (hfind c hc)
  | some k => exact List.mem_of_find?_eq_some hfind

theorem isKey_keyColumn (d : Descriptor) : d.keyColumn.isKey = true := by
  rw [keyColumn]
  cases hfind : d.columns.find? (·.isKey) with
  | none => rfl
  | some key => exact List.find?_some hfind

/-- Columns of one name are one column. -/
theorem eq_of_fold_eq {d : Descriptor} (h : d.NamesDistinct) {a b : Column} (ha : a ∈ d.columns)
    (hb : b ∈ d.columns) (hab : Text.fold a.name = Text.fold b.name) : a = b :=
  List.inj_on_of_nodup_map h ha hb hab

/-- A column is found by its name, however the name is spelled. -/
theorem column?_eq_some {d : Descriptor} (h : d.NamesDistinct) {c : Column} (hc : c ∈ d.columns)
    {name : String} (hname : Text.fold c.name = Text.fold name) : d.column? name = some c := by
  rw [column?]
  cases hfind : d.columns.find? (fun c => Text.foldsTo c.name name) with
  | none =>
    rw [List.find?_eq_none] at hfind
    exact absurd (Text.foldsTo_iff.mpr hname) (hfind c hc)
  | some found =>
    have hfold : Text.fold found.name = Text.fold name := by
      have hf := List.find?_some hfind
      exact Text.foldsTo_iff.mp hf
    rw [eq_of_fold_eq h (List.mem_of_find?_eq_some hfind) hc (hfold.trans hname.symm)]

end Descriptor
end RowGraph
