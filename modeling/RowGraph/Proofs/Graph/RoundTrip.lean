import Mathlib
import RowGraph.Proofs.Graph.Hydration
import RowGraph.Proofs.Row
import RowGraph.Proofs.Statement.Batch

/-!
What is inserted is what is loaded.

A row that is written passes through the columns of an insertion, the select list, the aliases and
the parts of a result row before it is a record.  Each of these has its own idea of what a column is:
some go by the name as it is declared, some by the folded name, and some columns have no field.  Where
no two columns of a descriptor fold alike the ideas agree, and the record has the value of the row
under every column.
-/

namespace RowGraph

/-! ## What is written -/

namespace Insert

/-- What the `k`-th row of a batch gives a column: null where the batch does not write it. -/
def written (i : Insert) (k : Nat) (name : String) : Value :=
  (Keyed.find? name (i.columns.zip (i.rows[k]?.getD []))).getD .null

/-- A column that an insertion leaves out is one under which the row has nothing. -/
theorem get_eq_null_of_not_mem {c : Catalogue} {d : Descriptor} (hd : c.Describes d) {row : Row}
    {column : Column} (hcolumn : column ∈ d.columns)
    (h : column.name ∉ columnsFor d row) : row.get column.name = .null := by
  obtain ⟨registered, hd⟩ := hd
  by_cases hkey : column.isKey = true ∧ lacksKey d row = true
  · rw [Catalogue.name_of_isKey hd hcolumn hkey.1]
    exact Value.isNull_iff.mp hkey.2
  · have hheld : ¬row.contains column.name = true := fun hheld =>
      h (mem_columnsFor.mpr ⟨column, hcolumn, rfl, hkey, Or.inr hheld⟩)
    rw [Row.contains, Bool.not_eq_true, Option.isSome_eq_false_iff, Option.isNone_iff_eq_none]
      at hheld
    rw [Row.get, hheld]
    rfl

/-- An insertion of one row gives every column of the table the value that the row has for it. -/
theorem written_ofRow {c : Catalogue} {d : Descriptor} (hd : c.Describes d) (row : Row)
    {column : Column} (hcolumn : column ∈ d.columns) :
    (ofRow d row).written 0 column.name = row.get column.name := by
  show (Keyed.find? column.name ((columnsFor d row).zip ((columnsFor d row).map row.get))).getD
    .null = _
  rw [Keyed.find?_zip_map]
  split
  next => rfl
  next h => exact (get_eq_null_of_not_mem hd hcolumn h).symm

end Insert

/-! ## What is answered -/

namespace Select

/-- The aliases of a selection, each with the value given for its column. -/
def valuesByAlias (s : Select) (t : Sql.AliasTable) (value : String → String → Value) :
    Keyed String Value :=
  s.readColumns.filterMap fun place =>
    (t.get? place.1 place.2).map fun name => (name, value place.1 place.2)

/-- The result row of a selection that has the given values under its aliases. -/
def answer (s : Select) (t : Sql.AliasTable) (value : String → String → Value) : Row :=
  .ofList (s.valuesByAlias t value)

/-- No two of the columns that are read are one column to a database. -/
def ReadsDistinct (s : Select) : Prop :=
  (s.readColumns.map fun place => (place.1, Text.fold place.2)).Nodup

variable {s : Select} {t : Sql.AliasTable} {value : String → String → Value}

theorem keys_valuesByAlias : (s.valuesByAlias t value).keys =
    s.readColumns.filterMap fun place => t.get? place.1 place.2 := by
  rw [Keyed.keys, valuesByAlias, List.map_filterMap]
  refine List.filterMap_congr fun place _ => ?_
  rw [Option.map_map]
  exact Option.map_id'

theorem entries_answer (distinct : s.ReadsDistinct) :
    (s.answer t value).entries = s.valuesByAlias t value := by
  refine Row.entries_ofList ?_ ?_
  · intro name hname
    rw [keys_valuesByAlias] at hname
    obtain ⟨place, -, hget⟩ := List.mem_filterMap.mp hname
    exact Sql.AliasTable.fold_of_get? hget
  · rw [keys_valuesByAlias]
    refine (List.pairwise_map.mp distinct).filterMap _ ?_
    rintro a b hne name hname _ hname' rfl
    obtain ⟨hparam, hcolumn⟩ := Sql.AliasTable.eq_of_get? hname hname'
    exact hne (by rw [hparam, hcolumn])

theorem mem_keys_answer (distinct : s.ReadsDistinct) {name : String} :
    name ∈ (s.answer t value).keys ↔
      ∃ place ∈ s.readColumns, t.get? place.1 place.2 = some name := by
  rw [Row.keys, entries_answer distinct, keys_valuesByAlias, List.mem_filterMap]

/-- A result row that is made of values has them. -/
theorem valueIn?_answer (distinct : s.ReadsDistinct) {param column : String}
    (hplace : (param, column) ∈ s.readColumns)
    (given : (t.get? param column).isSome = true) :
    t.valueIn? (s.answer t value) param column = some (value param column) := by
  obtain ⟨name, hname⟩ := Option.isSome_iff_exists.mp given
  have hentry : (name, value param column) ∈ (s.answer t value).entries := by
    rw [entries_answer distinct]
    refine List.mem_filterMap.mpr ⟨(param, column), hplace, ?_⟩
    rw [hname]
    rfl
  rw [Sql.AliasTable.valueIn?, hname, Option.bind_some, Row.get?_eq,
    Sql.AliasTable.fold_of_get? hname]
  exact Keyed.find?_of_mem (s.answer t value).distinct hentry

/-! ## Selections of one model -/

/-- The selection of everything in the table of a model. -/
def plain (d : Descriptor) (name : Option String) : Select :=
  ⟨.root name d, none, [], none⟩

theorem ofModel_eq {r : Registry} {model : String} {d : Descriptor}
    (hd : r.descriptor model = .ok d) (name : Option String) :
    ofModel r model name = .ok (plain d name) := by
  rw [ofModel, hd, Outcome.ok_bind, Parameters.register_empty]
  rfl

theorem find?_plain (d : Descriptor) (name : Option String) :
    (plain d name).params.find? (plain d name).rootName = some d :=
  if_pos rfl

theorem readColumns_plain (d : Descriptor) (name : Option String) :
    (plain d name).readColumns = d.columns.map fun column => ((plain d name).rootName, column.name) := by
  show ((d.columns.filter fun _ => true).map _) ++ [] = _
  rw [List.filter_true, List.append_nil]
  rfl

theorem readsDistinct_plain {d : Descriptor} (names : d.NamesDistinct) (name : Option String) :
    (plain d name).ReadsDistinct := by
  rw [ReadsDistinct, readColumns_plain, List.map_map]
  have hpairs := List.Nodup.map (Prod.mk_right_injective (plain d name).rootName) names
  rwa [List.map_map] at hpairs

/-- Nothing in a selection of one model can be refused. -/
theorem exists_serialize_plain (format : Sql.Format) (d : Descriptor) (name : Option String)
    (start : Sql.AliasTable) : ∃ f, format.serialize (.select (plain d name)) start = .ok f :=
  ⟨_, rfl⟩

end Select

/-! ## What is loaded -/

theorem Record.get_eq_ok {r : Record} {reading : Value.Reading} {column : String} {v : Value} :
    r.get reading column = .ok v ↔ (r.row.get column).readAs reading = .ok v := by
  rw [get]
  cases (r.row.get column).readAs reading with
  | ok w => exact Iff.rfl
  | error e => exact ⟨nofun, nofun⟩

/-- Under each column of its table, and through each field that is stored in one, the record reads
as the row does. -/
structure Record.ReadsBack (r : Record) (row : Row) : Prop where
  values : ∀ column ∈ r.descriptor.columns, r.row.get? column.name = some (row.get column.name)
  get : ∀ column ∈ r.descriptor.columns, ∀ reading v,
    r.get reading column.name = .ok v ↔ (row.get column.name).readAs reading = .ok v
  field : ∀ member column, r.descriptor.storage? member = some column → ∀ reading v,
    r.field reading member = .ok v ↔ (row.get column).readAs reading = .ok v

theorem Record.readsBack_of_values {c : Catalogue} {r : Record} {row : Row}
    (hd : c.Describes r.descriptor)
    (h : ∀ column ∈ r.descriptor.columns, r.row.get? column.name = some (row.get column.name)) :
    r.ReadsBack row := by
  have hget : ∀ name ∈ r.descriptor.columns.map Column.name, ∀ reading v,
      r.get reading name = .ok v ↔ (row.get name).readAs reading = .ok v := by
    intro name hname reading v
    obtain ⟨column, hcolumn, rfl⟩ := List.mem_map.mp hname
    rw [get_eq_ok, Row.get, h column hcolumn]
    rfl
  refine ⟨h, fun column hcolumn => hget column.name (List.mem_map_of_mem hcolumn), ?_⟩
  intro member column hstorage reading v
  obtain ⟨registered, hd⟩ := hd
  rw [field, hstorage]
  exact hget column (Catalogue.mem_names_of_storage? hd hstorage) reading v

namespace Graph

variable {c : Catalogue} {d : Descriptor} {t : Sql.AliasTable}

/-- A result row that has a key makes one record, which has the values of the row. -/
theorem hydrate_plain {name : Option String} {result : Row} {v : Value} {key : Key}
    (hnames : ∀ given ∈ result.keys, ∃ column,
      t.get? (Select.plain d name).rootName column = some given)
    (hv : t.valueIn? result (Select.plain d name).rootName d.primaryKey = some v)
    (hkey : v.toKey? = some key) :
    ∃ record, hydrate (Select.plain d name) t [result] = .ok [record] ∧ record.descriptor = d ∧
      record.param = (Select.plain d name).rootName ∧ record.relations = [] ∧
      ∀ column, record.row.get? column =
        t.valueIn? result (Select.plain d name).rootName column := by
  have hroot := Select.find?_plain d name
  have hnamed : ∀ row ∈ [result], ∀ given ∈ row.keys, ∃ param column,
      t.get? param column = some given ∧ ((Select.plain d name).params.find? param).isSome = true := by
    intro row hrow given hgiven
    rw [List.mem_singleton.mp hrow] at hgiven
    obtain ⟨column, hget⟩ := hnames given hgiven
    exact ⟨_, column, hget, by rw [hroot]; rfl⟩
  obtain ⟨groups, hgroups, collect⟩ := Groups.ofRows_eq hnamed
  have hkeyIn : (Select.plain d name).params.keyIn? t result (Select.plain d name).rootName =
      some key := by
    rw [keyIn?_eq hroot, hv, Option.bind_some, hkey]
  have hkeys : (groups.group (Select.plain d name).rootName).keys = [key] := by
    rw [collect.keys, Groups.keysOf, List.filterMap_cons, hkeyIn]
    rfl
  obtain ⟨⟨k, part⟩, hgroup, -⟩ := List.map_eq_singleton_iff.mp hkeys
  obtain ⟨row, hrow, -, hvalues⟩ := collect.parts (Select.plain d name).rootName (k, part)
    (hgroup ▸ List.mem_singleton_self _)
  rw [List.mem_singleton.mp hrow] at hvalues
  refine ⟨⟨d, (Select.plain d name).rootName, part, []⟩, ?_, rfl, rfl, rfl, hvalues⟩
  rw [hydrate, hgroups, Outcome.ok_bind, Groups.rows_eq, hgroup, List.map_singleton,
    List.mapM_cons, recordOf]
  show (record (Select.plain d name).params _ part (merged []) >>= _) = _
  rw [record, hroot]
  rfl

/-- A row that is inserted with a key and read back by a selection of its model makes one record.
The record has the key, is related to nothing, and reads as the row does. -/
theorem hydrate_inserted {r : Registry} (hr : Registry.Reached c r) {model : String}
    (hd : r.descriptor model = .ok d) (names : d.NamesDistinct) {row : Row} {key : Key}
    (hkey : (row.get d.primaryKey).toKey? = some key) (name : Option String)
    (format : Sql.Format) (start : Sql.AliasTable) :
    ∃ s f record, Select.ofModel r model name = .ok s ∧
      format.serialize (.select s) start = .ok f ∧
      hydrate s f.aliases
        [s.answer f.aliases fun _ column => (Insert.ofRow d row).written 0 column] = .ok [record] ∧
      record.descriptor = d ∧ record.param = s.rootName ∧ record.key? = some key ∧
      record.relations = [] ∧ record.ReadsBack row := by
  have hdescribed := (hr.sound.descriptor hd).2
  obtain ⟨f, hf⟩ := Select.exists_serialize_plain format d name start
  have distinct := Select.readsDistinct_plain names name
  have hvalue : ∀ column ∈ d.columns,
      f.aliases.valueIn? ((Select.plain d name).answer f.aliases fun _ column =>
        (Insert.ofRow d row).written 0 column) (Select.plain d name).rootName column.name =
        some (row.get column.name) := by
    intro column hcolumn
    have hplace : ((Select.plain d name).rootName, column.name) ∈
        (Select.plain d name).readColumns := by
      rw [Select.readColumns_plain]
      exact List.mem_map_of_mem hcolumn
    rw [Select.valueIn?_answer distinct hplace, Insert.written_ofRow hdescribed row hcolumn]
    rw [aliases_serialize hf]
    exact Sql.AliasTable.isSome_get?_assignAll hplace start
  have hprimary : ∃ column ∈ d.columns, column.name = d.primaryKey := by
    obtain ⟨registered, hresolved⟩ := hdescribed
    exact List.mem_map.mp (Catalogue.primaryKey_mem_names hresolved)
  obtain ⟨primary, hcolumn, hname⟩ := hprimary
  obtain ⟨record, hrecord, rfl, hparam, hrelations, hvalues⟩ := hydrate_plain (t := f.aliases)
    (v := row.get d.primaryKey) (fun given hgiven => by
      obtain ⟨place, hplace, hget⟩ := (Select.mem_keys_answer distinct).mp hgiven
      rw [Select.readColumns_plain] at hplace
      obtain ⟨column, -, rfl⟩ := List.mem_map.mp hplace
      exact ⟨column.name, hget⟩) (hname ▸ hvalue primary hcolumn) hkey
  refine ⟨Select.plain record.descriptor name, f, record, Select.ofModel_eq hd name, hf, hrecord,
    rfl, hparam, ?_, hrelations, ?_⟩
  · rw [Record.key?, Row.toKey?_get, hvalues, ← hname, hvalue primary hcolumn, Option.bind_some,
      hname, hkey]
  · exact Record.readsBack_of_values hdescribed fun column hcolumn =>
      (hvalues column.name).trans (hvalue column hcolumn)

/-! ### A character without a name -/

/-- The names are spelled in other ways than the columns, and the key of the player has no field. -/
def nameless : Row := .ofList [("ID", .i16 7), ("Player_Id", .i64 1)]

theorem hydrate_inserted_nameless :
    (Registry.ofCatalogue Insert.adventure).descriptor "Character" = .ok Insert.character ∧
      Insert.character.NamesDistinct ∧ (nameless.get "id").toKey? = some (.int 7) ∧
      ∃ s f record, Select.ofModel (.ofCatalogue Insert.adventure) "Character" (some "c") = .ok s ∧
        Sql.Format.serialize ⟨.sqlite, .placeholders, ""⟩ (.select s) .empty = .ok f ∧
        hydrate s f.aliases [s.answer f.aliases fun _ column =>
          (Insert.ofRow Insert.character nameless).written 0 column] = .ok [record] ∧
        record.key? = some (.int 7) ∧ record.relations = [] ∧
        record.get .any "id" = .ok (.i16 7) ∧ record.get .any "name" = .ok .null ∧
        record.field (.required .i64) "player" = .ok (.i64 1) := by
  have hd : (Registry.ofCatalogue Insert.adventure).descriptor "Character" =
      .ok Insert.character := by cbv
  have names : Insert.character.NamesDistinct := by decide +kernel
  have hid : nameless.get "id" = .i16 7 := by cbv
  have hname : nameless.get "name" = .null := by cbv
  have hplayer : nameless.get "player_id" = .i64 1 := by cbv
  have hkey : (nameless.get Insert.character.primaryKey).toKey? = some (.int 7) := by
    show (nameless.get "id").toKey? = _
    rw [hid]
    rfl
  obtain ⟨s, f, record, hs, hf, hrecord, hdescriptor, -, hrecordKey, hrelations, hback⟩ :=
    hydrate_inserted .fresh hd names hkey (some "c") ⟨.sqlite, .placeholders, ""⟩ .empty
  refine ⟨hd, names, hkey, s, f, record, hs, hf, hrecord, hrecordKey, hrelations, ?_, ?_, ?_⟩
  · have hcolumn : (⟨"id", some "id", .i64, none, true⟩ : Column) ∈ record.descriptor.columns := by
      rw [hdescriptor]
      decide
    exact (hback.get _ hcolumn .any _).mpr (congrArg Except.ok hid)
  · have hcolumn : Insert.nameColumn ∈ record.descriptor.columns := by
      rw [hdescriptor]
      decide
    exact (hback.get _ hcolumn .any _).mpr (congrArg Except.ok hname)
  · have hstorage : record.descriptor.storage? "player" = some "player_id" := by
      rw [hdescriptor]
      rfl
    refine (hback.field "player" "player_id" hstorage (.required .i64) _).mpr ?_
    rw [hplayer]
    rfl

end Graph
end RowGraph
