import RowGraph.Proofs.Graph.Hydration

/-!
Which rows of a result have a root record.

A result row is kept for the root under the key that its value in the key column stands for, and the
first row of a key makes the record.  The unmatched side of a left join has null there, but null is
not the only value that stands for no key: a floating-point number does not either, and a model may
well declare its key column with such a type.  Its rows are left out of the result without an error.

Nothing is assumed of the rows here but that hydrating them succeeded.
-/

namespace RowGraph

/-- Single values identify rows, except for null and floating-point numbers. -/
theorem Value.isSome_toKey?_iff {v : Value} :
    v.toKey?.isSome = true ↔ v ≠ .null ∧ (∀ x, v ≠ .f64 x) ∧ v.isList = false := by
  cases v with
  | list items => simp [toKey?, isList]
  | scalar v => cases v <;> simp [toKey?, Scalar.toKey?, Scalar.toInt?, isList]

namespace Graph

variable {t : Sql.AliasTable} {ps : Parameters} {row : Row} {rows : List Row} {param : String}
  {d : Descriptor}

/-- The value that a result row has for a column of a parameter. -/
def valueOf? (t : Sql.AliasTable) (row : Row) (param column : String) : Option Value :=
  match split t row with
  | .ok parts => Assignment.input parts param column
  | .error _ => none

theorem nodup_keys_split {parts : Keyed String Row} (h : split t row = .ok parts) :
    parts.keys.Nodup := by
  refine Outcome.foldlM_induction (P := fun parts => (Keyed.keys parts).Nodup) ?_ ?_ h
  · intro entry _ before after hbefore hstep
    rw [addEntry, Outcome.bind_eq_ok] at hstep
    obtain ⟨place, -, hstep⟩ := hstep
    cases hstep
    exact Keyed.nodup_keys_put hbefore
  · exact List.nodup_nil

namespace Groups

/-! ## The keys of a group -/

theorem find?_of_foldlM_add {parts : Keyed String Row} {groups after : Groups}
    (h : parts.foldlM (add ps) groups = .ok after) :
    ∀ param ∈ parts.keys, ∃ d, ps.find? param = some d := by
  induction parts generalizing groups with
  | nil => exact List.forall_mem_nil _
  | cons part rest ih =>
    rw [List.foldlM_cons, Outcome.bind_eq_ok] at h
    obtain ⟨next, hadd, hrest⟩ := h
    refine List.forall_mem_cons.mpr ⟨?_, ih hrest⟩
    rw [add] at hadd
    split at hadd
    next => cases hadd
    next d hd => exact ⟨d, hd⟩

/-- What a further row added to the group of a parameter. -/
theorem group_of_addRow (hd : ps.find? param = some d) {groups after : Groups}
    (h : addRow ps t groups row = .ok after) :
    ((valueOf? t row param d.primaryKey).bind Value.toKey? = none ∧
      after.group param = groups.group param) ∨
    ∃ key part, (valueOf? t row param d.primaryKey).bind Value.toKey? = some key ∧
      (part.get d.primaryKey).toKey? = some key ∧
      after.group param = (groups.group param).putNew key part := by
  rw [addRow, Outcome.bind_eq_ok] at h
  obtain ⟨parts, hsplit, h⟩ := h
  obtain ⟨after', hafter, hadded⟩ :=
    exists_foldlM_add groups (nodup_keys_split hsplit) (find?_of_foldlM_add h)
  rw [h] at hafter
  cases hafter
  have hvalue : valueOf? t row param d.primaryKey =
      (parts.find? param).bind fun part => part.get? d.primaryKey := by
    rw [valueOf?, hsplit]
    rfl
  rw [hvalue]
  cases hpart : parts.find? param with
  | none => exact Or.inl ⟨rfl, hadded.same param (Keyed.find?_eq_none.mp hpart)⟩
  | some part =>
    rw [Option.bind_some, ← Row.toKey?_get, hadded.kept param part d (Keyed.mem_of_find? hpart) hd,
      keepPart]
    cases hkey : (part.get d.primaryKey).toKey? with
    | none => exact Or.inl ⟨rfl, rfl⟩
    | some key => exact Or.inr ⟨key, part, rfl, hkey, rfl⟩

/-- The group of a parameter has the keys of the rows, each once and in the order in which they first
appeared, and under each a row that has it. -/
theorem group_of_ofRows (hd : ps.find? param = some d) {groups : Groups}
    (h : ofRows ps t rows = .ok groups) :
    (groups.group param).keys = (rows.filterMap fun row =>
      (valueOf? t row param d.primaryKey).bind Value.toKey?).eraseDups ∧
    ∀ entry ∈ groups.group param, (entry.2.get d.primaryKey).toKey? = some entry.1 := by
  refine Outcome.foldlM_prefix_induction
    (P := fun done groups => (group groups param).keys = (done.filterMap fun row =>
      (valueOf? t row param d.primaryKey).bind Value.toKey?).eraseDups ∧
      ∀ entry ∈ group groups param, (entry.2.get d.primaryKey).toKey? = some entry.1) ?_ ?_ h
  · rw [group_empty]
    exact ⟨rfl, List.forall_mem_nil _⟩
  · rintro done row groups after ⟨hkeys, hentries⟩ hstep
    rw [List.filterMap_append, List.filterMap_cons, List.filterMap_nil]
    rcases group_of_addRow hd hstep with ⟨hnone, hgroup⟩ | ⟨key, part, hsome, hpart, hgroup⟩
    · rw [hnone, hgroup, List.append_nil]
      exact ⟨hkeys, hentries⟩
    · rw [hsome, hgroup, eraseDups_concat, Keyed.keys_putNew, hkeys]
      refine ⟨by simp only [List.mem_eraseDups], fun entry hentry => ?_⟩
      rcases Keyed.mem_of_mem_putNew hentry with hold | rfl
      · exact hentries entry hold
      · exact hpart

end Groups

/-! ## Root records -/

variable {c : Catalogue} {s : Select} {records : List Record}

/-- The value that a result row has for the key column of the root. -/
def rootValue? (s : Select) (t : Sql.AliasTable) (row : Row) : Option Value :=
  (s.params.find? s.rootName).bind fun d => valueOf? t row s.rootName d.primaryKey

/-- A record is of the row and the descriptor of its parameter. -/
theorem recordOf_eq_ok (hd : ps.find? param = some d) {groups : Groups} {links : List Link}
    {r : Record} (h : recordOf ps groups links param row = .ok r) :
    r.descriptor = d ∧ r.row = row := by
  rw [recordOf, Outcome.bind_eq_ok] at h
  obtain ⟨found, -, h⟩ := h
  rw [record, hd] at h
  cases h
  exact ⟨rfl, rfl⟩

theorem map_key?_of_hydrate (hs : s.WellFormed c) (h : hydrate s t rows = .ok records) :
    records.map Record.key? =
      (rows.filterMap fun row => (rootValue? s t row).bind Value.toKey?).eraseDups.map some := by
  obtain ⟨d, hd⟩ := exists_root hs
  rw [hydrate, Outcome.bind_eq_ok] at h
  obtain ⟨groups, hgroups, h⟩ := h
  obtain ⟨hkeys, hentries⟩ := Groups.group_of_ofRows hd hgroups
  have hvalue : ∀ row, rootValue? s t row = valueOf? t row s.rootName d.primaryKey := by
    intro row
    rw [rootValue?, hd, Option.bind_some]
  have hrecords : List.Forall₂ (· = ·) ((groups.rows s.rootName).map fun row =>
      (row.get d.primaryKey).toKey?) (records.map Record.key?) := by
    rw [List.forall₂_map_left_iff, List.forall₂_map_right_iff]
    refine (Outcome.mapM_eq_ok.mp h).imp fun row r hr => ?_
    obtain ⟨hdescriptor, hrow⟩ := recordOf_eq_ok hd hr
    rw [Record.key?, hdescriptor, hrow]
  rw [List.forall₂_eq_eq_eq] at hrecords
  simp only [hvalue]
  rw [← hrecords, ← hkeys, Groups.rows_eq, List.map_map, Keyed.keys, List.map_map]
  exact List.map_congr_left fun entry hentry => hentries entry hentry

/-- The root records have the keys of the rows, each once and in the order in which they first
appeared.  A row that has a value for the key column of the root has a record of that key, with an
equal value, exactly if the value is not null, no floating-point number and no list. -/
theorem hydrate_rootKeys (h : s.Reached c) (hrecords : hydrate s t rows = .ok records) :
    records.map Record.key? =
      (rows.filterMap fun row => (rootValue? s t row).bind Value.toKey?).eraseDups.map some ∧
    ∀ row ∈ rows, ∀ v, rootValue? s t row = some v →
      ((∃ r ∈ records, r.key? = v.toKey? ∧
          (r.row.get r.descriptor.primaryKey).equals v = true) ↔
        v ≠ .null ∧ (∀ x, v ≠ .f64 x) ∧ v.isList = false) := by
  have hkeys := map_key?_of_hydrate h.wellFormed hrecords
  refine ⟨hkeys, fun row hrow v hv => ?_⟩
  rw [← Value.isSome_toKey?_iff]
  constructor
  · rintro ⟨r, hr, hkey, -⟩
    have hmem : v.toKey? ∈ records.map Record.key? := List.mem_map.mpr ⟨r, hr, hkey⟩
    rw [hkeys] at hmem
    obtain ⟨key, -, hsome⟩ := List.mem_map.mp hmem
    rw [← hsome]
    rfl
  · intro hsome
    obtain ⟨key, hkey⟩ := Option.isSome_iff_exists.mp hsome
    have hmem : some key ∈ records.map Record.key? := by
      rw [hkeys]
      refine List.mem_map_of_mem (List.mem_eraseDups.mpr (List.mem_filterMap.mpr ⟨row, hrow, ?_⟩))
      rw [hv, Option.bind_some, hkey]
    obtain ⟨r, hr, hrkey⟩ := List.mem_map.mp hmem
    refine ⟨r, hr, hrkey.trans hkey.symm, ?_⟩
    exact (Value.equals_iff_toKey? hrkey (Or.inr hsome)).mpr hkey

/-! ### A row that is left out -/

/-- Nodes are identified by a floating-point number. -/
def nodes : Catalogue where
  models := [⟨"Node", "Nodes", "id", [⟨"id", .column .f64 (some "id") none, false⟩]⟩]

def node : Descriptor :=
  ⟨"Node", "Nodes", "id", [⟨"id", some "id", .f64, none, true⟩], [], []⟩

def allNodes : Select :=
  ⟨⟨[("x", node)], some "x"⟩, none, [], none⟩

def nodeAliases : Sql.AliasTable := ⟨[("x", "id")]⟩

/-- The number one as a double. -/
def one : Binary64 := ⟨0x3ff0000000000000⟩

def floatRow : Row := .ofList [("_c0", .f64 one)]

def integerRow : Row := .ofList [("_c0", .i64 2)]

def integerRecord : Record :=
  ⟨node, "x", .ofList [("id", .i64 2)], []⟩

theorem reached_allNodes : allNodes.Reached nodes := by
  have hbuild : Select.build (.ofCatalogue nodes) "Node" none [] = .ok allNodes := by cbv
  exact Select.reached_build .fresh hbuild

theorem rootValue?_floatRow : rootValue? allNodes nodeAliases floatRow = some (.f64 one) := by
  cbv

theorem not_all_rows_recorded :
    ¬∀ c s, Select.Reached c s → ∀ t rows records, hydrate s t rows = .ok records →
      ∀ row ∈ rows, ∀ v, rootValue? s t row = some v → v ≠ .null →
        ∃ r ∈ records, (r.row.get r.descriptor.primaryKey).equals v = true := by
  intro h
  have hnone : hydrate allNodes nodeAliases [floatRow] = .ok [] := by cbv
  obtain ⟨r, hr, -⟩ := h nodes allNodes reached_allNodes nodeAliases [floatRow] [] hnone floatRow
    List.mem_cons_self (.f64 one) rootValue?_floatRow (by decide)
  cases hr

theorem hydrate_rootKeys_nodes :
    allNodes.Reached nodes ∧
      hydrate allNodes nodeAliases [floatRow, integerRow] = .ok [integerRecord] ∧
      rootValue? allNodes nodeAliases floatRow = some (.f64 one) ∧
      ¬(∃ r ∈ [integerRecord], r.key? = (Value.f64 one).toKey? ∧
          (r.row.get r.descriptor.primaryKey).equals (.f64 one) = true) ∧
      ∃ r ∈ [integerRecord], r.key? = (Value.i64 2).toKey? ∧
        (r.row.get r.descriptor.primaryKey).equals (.i64 2) = true := by
  have hrecords : hydrate allNodes nodeAliases [floatRow, integerRow] = .ok [integerRecord] := by
    cbv
  have hinteger : rootValue? allNodes nodeAliases integerRow = some (.i64 2) := by cbv
  obtain ⟨-, hall⟩ := hydrate_rootKeys reached_allNodes hrecords
  refine ⟨reached_allNodes, hrecords, rootValue?_floatRow, ?_, ?_⟩
  · rw [hall floatRow (by simp) _ rootValue?_floatRow]
    exact fun h => h.2.1 one rfl
  · exact (hall integerRow (by simp) _ hinteger).mpr ⟨by decide, by simp, rfl⟩

end Graph
end RowGraph
