import Mathlib
import RowGraph.Proofs.Repository.Written
import RowGraph.Proofs.Schema.History

/-!
What a batch of insertions writes.

The first row of a batch decides its columns, and of a later row only the values under these columns
are written.  A column that a field is loaded from is among them, unless it is a key that the
database is to generate, but a foreign key without a field of its own is so only if the first row has
it.  A later row that has such a key, where the first one does not, is accepted, and the key is lost.
-/

namespace RowGraph
namespace Insert

/-- The `k`-th row of values has a value in the place of a column. -/
def Writes (i : Insert) (k : Nat) (name : String) (v : Value) : Prop :=
  ∃ values, i.rows[k]? = some values ∧ (name, v) ∈ i.columns.zip values

/-- The insertion is a batch of the rows, of which the first one began it. -/
structure Batches (i : Insert) (d : Descriptor) (first : Row) (rows : List Row) : Prop where
  target : i.target = d
  columns : i.columns = columnsFor d first
  returningKey : i.returningKey = lacksKey d first
  keys : ∀ row ∈ rows, lacksKey d row = lacksKey d first
  rows : i.rows = rows.map fun row => i.columns.map row.get

variable {c : Catalogue} {d : Descriptor} {first row : Row} {rest rows : List Row}
  {i after : Insert} {column : Column}

/-- A batch takes a further row only if it has a key just where the first one does, and then leaves
its columns as they are. -/
theorem Batches.push (hi : i.Batches d first rows) (h : i.push row = .ok after) :
    after.Batches d first (rows ++ [row]) := by
  rw [Insert.push] at h
  split at h
  next hkey =>
    cases h
    rw [hi.target, hi.returningKey] at hkey
    refine ⟨hi.target, hi.columns, hi.returningKey, List.forall_mem_append.mpr ⟨hi.keys, ?_⟩, ?_⟩
    · intro other hother
      rwa [List.mem_singleton.mp hother]
    · rw [List.map_append, ← hi.rows]
      rfl
  next => cases h

theorem batches_of_foldlM (h : rest.foldlM push (ofRow d first) = .ok i) :
    i.Batches d first (first :: rest) := by
  refine Outcome.foldlM_prefix_induction
    (P := fun done i => i.Batches d first (first :: done)) ?_ ?_ h
  · exact ⟨rfl, rfl, rfl, by simp, rfl⟩
  · intro done row before after hbefore hstep
    exact hbefore.push hstep

/-- What a batch writes of a row under a column is the value of the row. -/
theorem Batches.writes_iff (hi : i.Batches d first rows) {k : Nat} (hrow : rows[k]? = some row)
    {name : String} {v : Value} :
    i.Writes k name v ↔ name ∈ i.columns ∧ v = row.get name := by
  have hvalues : i.rows[k]? = some (i.columns.map row.get) := by
    rw [hi.rows, List.getElem?_map, hrow]
    rfl
  rw [Writes, hvalues]
  simp only [Option.some.injEq, exists_eq_left', mem_cells]

/-- A column under which some row has a value is written if a field is loaded from it or the first
row has it. -/
theorem Batches.mem_columns_iff (hd : c.Describes d) (hi : i.Batches d first rows)
    (hrow : row ∈ rows) (hcolumn : column ∈ d.columns) (hvalue : row.get column.name ≠ .null) :
    column.name ∈ i.columns ↔ column.member.isSome = true ∨ first.contains column.name = true := by
  obtain ⟨registered, hd⟩ := hd
  have hkey : ¬(column.isKey = true ∧ lacksKey d first = true) := by
    rintro ⟨hflag, hlacks⟩
    rw [← hi.keys row hrow, lacksKey, ← Catalogue.name_of_isKey hd hcolumn hflag,
      Value.isNull_iff] at hlacks
    exact hvalue hlacks
  rw [hi.columns, mem_columnsFor]
  constructor
  · rintro ⟨other, hother, hname, -, hheld⟩
    have heq : other = column :=
      List.inj_on_of_nodup_map (Catalogue.nodup_names_resolve hd) hother hcolumn hname
    rwa [heq] at hheld
  · exact fun hheld => ⟨column, hcolumn, rfl, hkey, hheld⟩

/-- Every row of values of a batch has one value for each column.  A value that a row has is written
in its row exactly when a field is loaded from its column or the first row has the column. -/
theorem writes_iff_of_foldlM (hd : c.Describes d)
    (h : rest.foldlM push (ofRow d first) = .ok i) :
    i.rows.length = rest.length + 1 ∧ (∀ values ∈ i.rows, values.length = i.columns.length) ∧
      ∀ k row, (first :: rest)[k]? = some row → ∀ column ∈ d.columns,
        row.get column.name ≠ .null →
          (i.Writes k column.name (row.get column.name) ↔
            column.member.isSome = true ∨ first.contains column.name = true) := by
  have hi := batches_of_foldlM h
  refine ⟨?_, ?_, ?_⟩
  · rw [hi.rows, List.length_map, List.length_cons]
  · intro values hvalues
    rw [hi.rows] at hvalues
    obtain ⟨row, -, rfl⟩ := List.mem_map.mp hvalues
    exact List.length_map _
  · intro k row hrow column hcolumn hvalue
    rw [hi.writes_iff hrow, hi.mem_columns_iff hd (List.mem_of_getElem? hrow) hcolumn hvalue]
    exact and_iff_left rfl

/-! ### A value that is not written -/

/-- Characters refer to the player they belong to by a foreign key that no field is loaded from. -/
def adventure : Catalogue where
  models := [
    ⟨"Player", "Players", "id", [⟨"id", .column .i64 (some "id") none, false⟩]⟩,
    ⟨"Character", "Characters", "id", [⟨"id", .column .i64 (some "id") none, false⟩,
      ⟨"name", .column .string (some "name") none, false⟩,
      ⟨"player", .belongsTo "Player" (some "player_id"), false⟩]⟩]

def nameColumn : Column := ⟨"name", some "name", .string, none, false⟩

def playerColumn : Column := ⟨"player_id", none, .i64, some ⟨"Player", "Players", "id"⟩, false⟩

def character : Descriptor where
  model := "Character"
  table := "Characters"
  primaryKey := "id"
  columns := [⟨"id", some "id", .i64, none, true⟩, nameColumn, playerColumn]
  relations := []
  references := [⟨"player", "Player", "player_id"⟩]

def mage : Row := .ofList [("name", .string "Mage")]

def rogue : Row := .ofList [("name", .string "Rogue"), ("player_id", .i64 1)]

/-- A character of no player, and one that loses its player. -/
def characters : Insert where
  target := character
  columns := ["name"]
  rows := [[.string "Mage"], [.string "Rogue"]]
  returningKey := true

theorem describes_character : adventure.Describes character := ⟨[], by cbv⟩

theorem foldlM_characters : [rogue].foldlM push (ofRow character mage) = .ok characters := by
  cbv

theorem get_rogue_ne_null : rogue.get "name" ≠ .null ∧ rogue.get "player_id" ≠ .null := by
  have hname : rogue.get "name" = .string "Rogue" := by cbv
  have hplayer : rogue.get "player_id" = .i64 1 := by cbv
  rw [hname, hplayer]
  exact ⟨by decide, by decide⟩

theorem not_all_values_written :
    ¬∀ c d, Catalogue.Describes c d → ∀ first rest i,
      rest.foldlM push (ofRow d first) = .ok i →
        ∀ k row, (first :: rest)[k]? = some row → ∀ column ∈ d.columns,
          row.get column.name ≠ .null → i.Writes k column.name (row.get column.name) := by
  intro h
  obtain ⟨values, hvalues, hcell⟩ := h adventure character describes_character mage [rogue]
    characters foldlM_characters 1 rogue rfl playerColumn (by decide) get_rogue_ne_null.2
  have hwritten : "player_id" ∈ characters.columns := (List.of_mem_zip hcell).1
  exact absurd hwritten (by decide)

theorem writes_iff_of_foldlM_characters :
    adventure.Describes character ∧
      [rogue].foldlM push (ofRow character mage) = .ok characters ∧
      characters.Writes 1 "name" (rogue.get "name") ∧
      ¬characters.Writes 1 "player_id" (rogue.get "player_id") := by
  obtain ⟨-, -, hwrites⟩ := writes_iff_of_foldlM describes_character foldlM_characters
  have hname := hwrites 1 rogue rfl nameColumn (by decide) get_rogue_ne_null.1
  have hplayer := hwrites 1 rogue rfl playerColumn (by decide) get_rogue_ne_null.2
  have hmissing : mage.contains "player_id" = false := by cbv
  refine ⟨describes_character, foldlM_characters, hname.mpr (Or.inl rfl), ?_⟩
  intro hwritten
  rcases hplayer.mp hwritten with hmember | hheld
  · cases hmember
  · rw [show playerColumn.name = "player_id" from rfl, hmissing] at hheld
    cases hheld

end Insert
end RowGraph
