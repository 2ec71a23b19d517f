import RowGraph.Proofs.Comparison
import RowGraph.Proofs.Keyed
import RowGraph.Proofs.Outcome
import RowGraph.Repository.Storing

/-!
What statements do to a table.

Of the state that a runner works on, only the rows of one table matter here, by the key that they
have.  A runner is faithful to the table if an insertion adds one row that holds the values
inserted, if an update changes the assigned columns of one row, and if neither touches any other
row.  A runner may refuse a statement, and then leaves the table as it was.  The table in memory at
the end shows that this can be had.
-/

namespace RowGraph

/-- Names that differ to a database. -/
def DistinctColumns (columns : List String) : Prop :=
  (columns.map Text.fold).Nodup

/-- A table as it is seen from outside. -/
structure Table (σ κ : Type) where
  row? : σ → κ → Option Row
  /-- The key that a value stands for. -/
  ident : Value → Option κ
  /-- The stored value counts as the value that was written. -/
  agree : Value → Value → Prop

namespace Table

variable {σ κ : Type}

def Holds (tb : Table σ κ) (row : Row) (column : String) (value : Value) : Prop :=
  ∃ stored, row.get? column = some stored ∧ tb.agree stored value

/-- The rows of all other keys are the same. -/
def SameBut (tb : Table σ κ) (k : κ) (s s' : σ) : Prop :=
  ∀ other, other ≠ k → tb.row? s' other = tb.row? s other

theorem SameBut.trans {tb : Table σ κ} {k : κ} {s s' s'' : σ} (h : tb.SameBut k s s')
    (h' : tb.SameBut k s' s'') : tb.SameBut k s s'' := by
  intro other hother
  rw [h' other hother, h other hother]

/-! ## Statements about one row -/

/-- An insertion of one row that names every column once, the key among them unless the database is
to generate it. -/
structure IsInsertion (d : Descriptor) (i : Insert) (values : List Value) : Prop where
  target : i.target = d
  rows : i.rows = [values]
  length : values.length = i.columns.length
  key : i.returningKey = false → d.primaryKey ∈ i.columns
  distinct : DistinctColumns (if i.returningKey then d.primaryKey :: i.columns else i.columns)

/-- An update of one row that assigns every column once, and not the key. -/
structure IsUpdate (d : Descriptor) (u : Update) (key : Value) (assignments : Keyed String Value) :
    Prop where
  target : u.target = d
  rows : u.rows = [⟨key, assignments⟩]
  distinct : DistinctColumns (d.primaryKey :: assignments.keys)

/-- The answer hands out a key of the type of the key column. -/
def Generates (d : Descriptor) (answer : List Row) (key : Value) : Prop :=
  ∃ first name value, answer.head? = some first ∧ first.entries.head? = some (name, value) ∧
    value.isNull = false ∧ value.convert d.keyColumn.ty = .ok key

/-- A new row under a key that was free, with the values inserted. -/
structure Inserted (tb : Table σ κ) (d : Descriptor) (i : Insert) (values : List Value)
    (answer : List Row) (s s' : σ) (k : κ) (row : Row) : Prop where
  free : tb.row? s k = none
  present : tb.row? s' k = some row
  elsewhere : tb.SameBut k s s'
  holds : ∀ column value, (column, value) ∈ i.columns.zip values → tb.Holds row column value
  given : ∀ value, (d.primaryKey, value) ∈ i.columns.zip values → tb.ident value = some k
  generated : i.returningKey = true → ∃ key, Generates d answer key ∧ tb.ident key = some k ∧
    tb.Holds row d.primaryKey key

/-- The row of a key with the assigned columns changed. -/
structure Updated (tb : Table σ κ) (assignments : Keyed String Value) (s s' : σ) (k : κ) :
    Prop where
  elsewhere : tb.SameBut k s s'
  changed : ∀ row, tb.row? s k = some row → ∃ row', tb.row? s' k = some row' ∧
    (∀ a ∈ assignments, tb.Holds row' a.1 a.2) ∧
    ∀ name, (∀ a ∈ assignments, Text.fold a.1 ≠ Text.fold name) → row'.get? name = row.get? name

/-- The runner carries out insertions and updates of one row, or refuses them. -/
structure Faithful (tb : Table σ κ) (d : Descriptor) (run : Runner σ) : Prop where
  refuses : ∀ st s err s', run st s = (.error err, s') → tb.row? s' = tb.row? s
  inserts : ∀ i values s answer s', IsInsertion d i values → run (.insert i) s = (.ok answer, s') →
    ∃ k row, tb.Inserted d i values answer s s' k row
  updates : ∀ u key assignments s answer s' k, IsUpdate d u key assignments →
    run (.update u) s = (.ok answer, s') → tb.ident key = some k → tb.Updated assignments s s' k

end Table

/-! ## A table in memory -/

/-- Rows by key, and the next key to hand out. -/
structure Shelf where
  rows : Keyed Key Row
  next : Int64

namespace Shelf

/-- The shelf with a further row, unless the value is no key or a row has the key. -/
def place (s : Shelf) (key : Value) (row : Row) : Outcome Shelf :=
  match key.toKey? with
  | some k =>
    if s.rows.has k then .error (Error.ofText "the key is taken")
    else .ok { s with rows := s.rows.put k row }
  | none => .error (Error.ofText "there is no key")

/-- The row with the given values. -/
def write (row : Row) (cells : List (String × Value)) : Row :=
  cells.foldl (fun row cell => row.insert cell.1 cell.2) row

def insertRow (i : Insert) (found : List Row × Shelf) (values : List Value) :
    Outcome (List Row × Shelf) := do
  let row := write .empty (i.columns.zip values)
  if i.returningKey then
    let key := Value.i64 found.2.next
    let s ← found.2.place key (row.insert i.target.primaryKey key)
    return (found.1 ++ [Row.empty.insert i.target.primaryKey key], { s with next := s.next + 1 })
  else return (found.1, ← found.2.place (row.get i.target.primaryKey) row)

def updateRow (s : Shelf) (r : UpdateRow) : Shelf :=
  match r.key.toKey? with
  | some k =>
    match s.rows.find? k with
    | some row => { s with rows := s.rows.put k (write row r.assignments) }
    | none => s
  | none => s

/-- The shelf as what runs statements.  It only takes insertions and updates. -/
def run : Runner Shelf
  | .insert i, s =>
    match i.rows.foldlM (insertRow i) ([], s) with
    | .ok (answer, s) => (.ok answer, s)
    | .error err => (.error err, s)
  | .update u, s => (.ok [], u.rows.foldl updateRow s)
  | _, s => (.error (Error.ofText "the table is only written"), s)

def table : Table Shelf Key where
  row? s k := s.rows.find? k
  ident := Value.toKey?
  agree := Eq

/-! ### What was written is there -/

theorem get?_write_of_not_mem {name : String} (cells : List (String × Value)) (row : Row)
    (h : ∀ cell ∈ cells, Text.fold cell.1 ≠ Text.fold name) :
    (write row cells).get? name = row.get? name := by
  induction cells generalizing row with
  | nil => rfl
  | cons cell rest ih =>
    rw [write, List.foldl_cons]
    exact (ih _ fun other hother => h other (List.mem_cons_of_mem cell hother)).trans
      (Row.get?_insert_of_ne (h cell List.mem_cons_self).symm cell.2)

theorem get?_write_of_mem {name : String} {value : Value} (cells : List (String × Value))
    (row : Row) (distinct : DistinctColumns (cells.map Prod.fst)) (h : (name, value) ∈ cells) :
    (write row cells).get? name = some value := by
  induction cells generalizing row with
  | nil => cases h
  | cons cell rest ih =>
    rw [DistinctColumns, List.map_cons, List.map_cons, List.nodup_cons] at distinct
    rw [write, List.foldl_cons]
    rcases List.mem_cons.mp h with rfl | h
    · have hlater : ∀ other ∈ rest, Text.fold other.1 ≠ Text.fold name := by
        intro other hother heq
        exact distinct.1 (heq ▸ List.mem_map_of_mem (List.mem_map_of_mem hother))
      exact (get?_write_of_not_mem rest _ hlater).trans (Row.get?_insert_self row name value)
    · exact ih _ distinct.2 h

theorem place_eq_ok {s s' : Shelf} {key : Value} {row : Row} (h : s.place key row = .ok s') :
    ∃ k, key.toKey? = some k ∧ s.rows.find? k = none ∧
      s' = { s with rows := s.rows.put k row } := by
  rw [place] at h
  split at h
  next k hkey =>
    split at h
    next => cases h
    next hfree =>
      cases h
      refine ⟨k, hkey, ?_, rfl⟩
      rw [Keyed.find?_eq_none, ← Keyed.has_iff]
      exact hfree
  next => cases h

theorem convert_i64 (n : Int64) : (Value.i64 n).convert .i64 = .ok (.i64 n) := by
  have hint : (Value.i64 n).toInt? = some n.toInt := rfl
  obtain ⟨k, hconvert, hk⟩ := Value.convert_of_toInt? hint
  rw [hconvert, Int64.toInt_inj.mp hk]

theorem sameBut_put {s s' : Shelf} {k : Key} {row : Row} (h : s'.rows = s.rows.put k row) :
    table.SameBut k s s' := by
  intro other hother
  show s'.rows.find? other = s.rows.find? other
  rw [h]
  exact Keyed.find?_put_of_ne hother row s.rows

theorem row?_put {s : Shelf} {rows : Keyed Key Row} {k : Key} {row : Row}
    (h : s.rows = rows.put k row) : table.row? s k = some row := by
  show s.rows.find? k = some row
  rw [h, Keyed.find?_put_self]

theorem inserted_insertRow {d : Descriptor} (hty : d.keyColumn.ty = .i64) {i : Insert}
    {values : List Value} (hi : Table.IsInsertion d i values) {s s' : Shelf} {answer : List Row}
    (h : insertRow i ([], s) values = .ok (answer, s')) :
    ∃ k row, table.Inserted d i values answer s s' k row := by
  have hcolumns : (i.columns.zip values).map Prod.fst = i.columns :=
    List.map_fst_zip (Nat.le_of_eq hi.length.symm)
  have hdistinct := hi.distinct
  rw [insertRow, hi.target] at h
  by_cases hreturning : i.returningKey = true
  · rw [if_pos hreturning, DistinctColumns, List.map_cons, List.nodup_cons] at hdistinct
    have hne : ∀ column ∈ i.columns, Text.fold column ≠ Text.fold d.primaryKey := by
      intro column hcolumn heq
      exact hdistinct.1 (heq ▸ List.mem_map_of_mem hcolumn)
    rw [if_pos hreturning, Outcome.bind_eq_ok] at h
    obtain ⟨placed, hplace, h⟩ := h
    cases h
    obtain ⟨k, hk, hfree, rfl⟩ := place_eq_ok hplace
    refine ⟨k, _, hfree, row?_put rfl, sameBut_put rfl, ?_, ?_, ?_⟩
    · intro column value hcell
      refine ⟨value, ?_, rfl⟩
      rw [Row.get?_insert_of_ne (hne column (List.of_mem_zip hcell).1)]
      exact get?_write_of_mem _ _ (by rw [hcolumns]; exact hdistinct.2) hcell
    · intro value hcell
      exact absurd rfl (hne d.primaryKey (List.of_mem_zip hcell).1)
    · intro _
      refine ⟨.i64 s.next, ⟨_, Text.fold d.primaryKey, .i64 s.next, rfl, rfl, rfl, ?_⟩, hk, ?_⟩
      · rw [hty]
        exact convert_i64 s.next
      · exact ⟨_, Row.get?_insert_self _ _ _, rfl⟩
  · rw [if_neg hreturning] at hdistinct
    rw [if_neg hreturning, Outcome.bind_eq_ok] at h
    obtain ⟨placed, hplace, h⟩ := h
    cases h
    obtain ⟨k, hk, hfree, rfl⟩ := place_eq_ok hplace
    have hwritten : ∀ column value, (column, value) ∈ i.columns.zip values →
        (write .empty (i.columns.zip values)).get? column = some value := by
      intro column value hcell
      exact get?_write_of_mem _ _ (by rw [hcolumns]; exact hdistinct) hcell
    refine ⟨k, _, hfree, row?_put rfl, sameBut_put rfl, ?_, ?_, ?_⟩
    · intro column value hcell
      exact ⟨value, hwritten column value hcell, rfl⟩
    · intro value hcell
      rw [Row.get, hwritten d.primaryKey value hcell] at hk
      exact hk
    · intro hreturns
      exact absurd hreturns hreturning

theorem updated_updateRow (s : Shelf) {r : UpdateRow} {k : Key} (hkey : r.key.toKey? = some k)
    (distinct : DistinctColumns r.assignments.keys) :
    table.Updated r.assignments s (s.updateRow r) k := by
  cases hfind : s.rows.find? k with
  | none =>
    have hsame : s.updateRow r = s := by simp only [updateRow, hkey, hfind]
    rw [hsame]
    refine ⟨fun _ _ => rfl, ?_⟩
    intro row hrow
    rw [show table.row? s k = s.rows.find? k from rfl, hfind] at hrow
    cases hrow
  | some stored =>
    have hput : (s.updateRow r).rows = s.rows.put k (write stored r.assignments) := by
      simp only [updateRow, hkey, hfind]
    refine ⟨sameBut_put hput, ?_⟩
    intro row hrow
    rw [show table.row? s k = s.rows.find? k from rfl, hfind] at hrow
    cases hrow
    refine ⟨_, row?_put hput, ?_, ?_⟩
    · intro a ha
      exact ⟨a.2, get?_write_of_mem _ _ distinct ha, rfl⟩
    · intro name hname
      exact get?_write_of_not_mem _ _ hname

/-- The table in memory is faithful where keys are 64-bit integers. -/
theorem faithful_run {d : Descriptor} (hty : d.keyColumn.ty = .i64) : table.Faithful d run := by
  refine ⟨?_, ?_, ?_⟩
  · intro st s err s' h
    match st, h with
    | .insert i, h =>
      rw [run] at h
      split at h
      next => cases h
      next =>
        cases h
        rfl
    | .update u, h => cases h
    | .select _, h | .delete _, h =>
      cases h
      rfl
  · intro i values s answer s' hi h
    rw [run, hi.rows, List.foldlM_cons] at h
    cases hinsert : insertRow i ([], s) values with
    | error err =>
      rw [hinsert] at h
      cases h
    | ok found =>
      rw [hinsert] at h
      cases h
      exact inserted_insertRow hty hi hinsert
  · intro u key assignments s answer s' k hu h hkey
    rw [run, hu.rows] at h
    cases h
    exact updated_updateRow s (r := ⟨key, assignments⟩) hkey (List.nodup_cons.mp hu.distinct).2

end Shelf
end RowGraph
