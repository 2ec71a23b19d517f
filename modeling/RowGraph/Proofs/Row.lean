import RowGraph.Proofs.Keyed
import RowGraph.Row

/-!
Rows made of other rows.

A row is told by its entries.  Pairs of distinct names that are folded already are the entries of the
row that is made of them, and a row can be cut down to some of its columns, which keep their order.
-/

namespace RowGraph
namespace Row

theorem eq_of_entries_eq {a b : Row} (h : a.entries = b.entries) : a = b := by
  cases a
  cases b
  cases h
  rfl

/-- Distinct folded names stand side by side in the row that is made of them. -/
theorem entries_ofList {pairs : Keyed String Value}
    (folded : ∀ name ∈ pairs.keys, Text.fold name = name) (distinct : pairs.keys.Nodup) :
    (ofList pairs).entries = pairs := by
  suffices hgen : ∀ (done : Row) (rest : Keyed String Value),
      (∀ name ∈ rest.keys, Text.fold name = name) → (Keyed.keys (done.entries ++ rest)).Nodup →
        (rest.foldl (fun row pair => row.insert pair.1 pair.2) done).entries = done.entries ++ rest by
    exact hgen empty pairs folded distinct
  intro done rest
  induction rest generalizing done with
  | nil => exact fun _ _ => (List.append_nil _).symm
  | cons pair rest ih =>
    intro hfolded hdistinct
    have hnew : pair.1 ∉ done.entries.keys := by
      rw [Keyed.keys, List.map_append, List.nodup_append] at hdistinct
      exact fun h => hdistinct.2.2 pair.1 h pair.1 List.mem_cons_self rfl
    have hinsert : (done.insert pair.1 pair.2).entries = done.entries ++ [pair] := by
      show done.entries.put (Text.fold pair.1) pair.2 = _
      rw [hfolded pair.1 List.mem_cons_self, Keyed.put_of_not_mem hnew]
    rw [List.foldl_cons, ih, hinsert, List.append_assoc, List.singleton_append]
    · exact fun name hname => hfolded name (List.mem_cons_of_mem _ hname)
    · rwa [hinsert, List.append_assoc, List.singleton_append]

/-- Of two values under one name the second stays. -/
theorem insert_insert (row : Row) (name : String) (value value' : Value) :
    (row.insert name value).insert name value' = row.insert name value' :=
  eq_of_entries_eq (Keyed.put_put _ _ _ _)

/-- A name that is present keeps its place, whatever is put beside it. -/
theorem insert_comm {row : Row} {name other : String} (hne : Text.fold other ≠ Text.fold name)
    (h : Text.fold name ∈ row.keys) (value value' : Value) :
    (row.insert other value').insert name value = (row.insert name value).insert other value' :=
  eq_of_entries_eq (Keyed.put_comm hne h _ _)

/-! ## Some of the columns -/

/-- The row without the columns that are not kept. -/
def project (keep : String → Bool) (row : Row) : Row where
  entries := row.entries.filter fun entry => keep entry.1
  folded := by
    intro name hname
    obtain ⟨entry, hentry, rfl⟩ := List.mem_map.mp hname
    exact row.folded entry.1 (Keyed.mem_keys_of_mem (List.mem_filter.mp hentry).1)
  distinct := row.distinct.sublist (List.filter_sublist.map _)

variable (keep : String → Bool)

theorem get?_project (row : Row) (name : String) :
    (row.project keep).get? name = if keep (Text.fold name) then row.get? name else none := by
  rw [get?_eq, get?_eq]
  exact Keyed.find?_filter keep (Text.fold name) row.entries

theorem get?_project_of_keep {name : String} (h : keep (Text.fold name) = true) (row : Row) :
    (row.project keep).get? name = row.get? name := by
  rw [get?_project, if_pos h]

theorem project_empty : empty.project keep = empty :=
  eq_of_entries_eq rfl

theorem project_insert (row : Row) (name : String) (value : Value) :
    (row.insert name value).project keep =
      if keep (Text.fold name) then (row.project keep).insert name value else row.project keep := by
  have hentries := Keyed.filter_put keep (Text.fold name) value row.entries
  split
  next h =>
    rw [if_pos h] at hentries
    exact eq_of_entries_eq hentries
  next h =>
    rw [if_neg h] at hentries
    exact eq_of_entries_eq hentries

/-! ## Other values -/

/-- The row with other values under its names. -/
def mapValues (f : Value → Value) (row : Row) : Row where
  entries := row.entries.mapValues f
  folded := by
    rw [Keyed.keys_mapValues]
    exact row.folded
  distinct := by
    rw [Keyed.keys_mapValues]
    exact row.distinct

variable (f : Value → Value)

theorem get?_mapValues (row : Row) (name : String) :
    (row.mapValues f).get? name = (row.get? name).map f := by
  rw [get?_eq, get?_eq]
  exact Keyed.find?_mapValues f (Text.fold name) row.entries

theorem mapValues_insert (row : Row) (name : String) (value : Value) :
    (row.mapValues f).insert name (f value) = (row.insert name value).mapValues f :=
  eq_of_entries_eq (Keyed.put_mapValues f (Text.fold name) value row.entries)

end Row
end RowGraph
