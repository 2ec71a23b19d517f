import RowGraph.Proofs.Graph.Projection
import RowGraph.Proofs.Graph.RootKeys

/-!
Rows that repeat what other rows have.

A row adds to the graph by the keys that it has and nothing else: of the parts of a parameter that
share a key the first is kept.  A row whose keys were all seen before leaves the graph as it is,
whatever else it says, and so does the unmatched side of a left join, which has no key.
-/

namespace RowGraph
namespace Graph

variable {s : Select} {t : Sql.AliasTable} {ps : Parameters} {row : Row} {rows more : List Row}

/-- The key that a row has for a parameter, under whatever names it keeps its columns. -/
def keyOf? (ps : Parameters) (t : Sql.AliasTable) (row : Row) (param : String) : Option Key :=
  (ps.find? param).bind fun d => (valueOf? t row param d.primaryKey).bind Value.toKey?

/-- The row has columns of the parameters only, and for each of these a key that one of the rows has
or no key at all. -/
structure Familiar (ps : Parameters) (t : Sql.AliasTable) (rows : List Row) (row : Row) :
    Prop where
  known : ∀ name ∈ row.keys, ∃ place, locate t name = .ok place ∧ place.1 ∈ ps.names
  keys : ∀ param ∈ ps.names, ∀ key ∈ keyOf? ps t row param,
    ∃ row' ∈ rows, keyOf? ps t row' param = some key

/-! ## The parameters of a row -/

/-- A row is taken apart if its names can be located. -/
theorem exists_split (known : List String)
    (h : ∀ name ∈ row.keys, ∃ place, locate t name = .ok place ∧ place.1 ∈ known) :
    ∃ parts, split t row = .ok parts ∧ parts.keys ⊆ known := by
  refine Outcome.exists_foldlM row.entries (P := fun _ parts => Keyed.keys parts ⊆ known)
    (List.nil_subset known) ?_
  rintro done ⟨name, v⟩ rest parts hentries hparts
  have hname : name ∈ row.keys := by
    rw [Row.keys, hentries]
    exact List.mem_map_of_mem (List.mem_append_right done List.mem_cons_self)
  obtain ⟨place, hplace, hknown⟩ := h name hname
  refine ⟨_, by rw [addEntry, hplace]; rfl, fun param hparam => ?_⟩
  rcases Keyed.mem_keys_put.mp hparam with rfl | hparam
  · exact hknown
  · exact hparts hparam

/-- The names of a row that was taken apart belong to its parts. -/
theorem locate_of_split {parts : Keyed String Row} (h : split t row = .ok parts) :
    ∀ name ∈ row.keys, ∃ place, locate t name = .ok place ∧ place.1 ∈ parts.keys := by
  refine Outcome.foldlM_prefix_induction
    (P := fun done parts => ∀ name ∈ Keyed.keys done, ∃ place, locate t name = .ok place ∧
      place.1 ∈ Keyed.keys parts) (List.forall_mem_nil _) ?_ h
  rintro done ⟨name, v⟩ before after hbefore hstep name' hname'
  rw [addEntry, Outcome.bind_eq_ok] at hstep
  obtain ⟨place, hplace, hstep⟩ := hstep
  cases hstep
  rw [Keyed.keys, List.map_append, List.mem_append] at hname'
  rcases hname' with hold | hnew
  · obtain ⟨place', hplace', hmem⟩ := hbefore name' hold
    exact ⟨place', hplace', Keyed.mem_keys_put.mpr (Or.inr hmem)⟩
  · rw [List.mem_singleton.mp hnew]
    exact ⟨place, hplace, Keyed.mem_keys_put.mpr (Or.inl rfl)⟩

namespace Groups

/-! ## Parts that are not kept -/

/-- A part without a key, or with a key that the group has, is not kept. -/
theorem add_of_mem {groups : Groups} {param : String} {part : Row} {d : Descriptor}
    (hd : ps.find? param = some d)
    (seen : ∀ key ∈ (part.get d.primaryKey).toKey?, key ∈ (groups.group param).keys) :
    add ps groups (param, part) = .ok groups := by
  rw [add, hd]
  dsimp only
  cases hkey : (part.get d.primaryKey).toKey? with
  | none => rfl
  | some key =>
    have hmem := seen key hkey
    rw [group] at hmem
    cases hgroup : groups.find? param with
    | none =>
      rw [hgroup] at hmem
      cases hmem
    | some kept =>
      rw [hgroup, Option.getD_some] at hmem
      show Except.ok (Keyed.change _ _ _ _) = _
      rw [Keyed.change, hgroup, Option.getD_some, Keyed.putNew_of_mem hmem,
        Keyed.put_of_find? hgroup]

/-- A row whose keys the groups have adds nothing to them. -/
theorem addRow_of_mem {groups : Groups}
    (known : ∀ name ∈ row.keys, ∃ place, locate t name = .ok place ∧ place.1 ∈ ps.names)
    (seen : ∀ param ∈ ps.names, ∀ key ∈ keyOf? ps t row param,
      key ∈ (groups.group param).keys) : addRow ps t groups row = .ok groups := by
  obtain ⟨parts, hsplit, hknown⟩ := exists_split ps.names known
  rw [addRow, hsplit, Outcome.ok_bind]
  refine Outcome.foldlM_of_fixed ?_
  rintro ⟨param, part⟩ hpart
  have hparam : param ∈ ps.names := hknown (Keyed.mem_keys_of_mem hpart)
  obtain ⟨d, hd⟩ := Option.isSome_iff_exists.mp (Keyed.has_iff.mpr hparam)
  refine add_of_mem hd fun key hkey => seen param hparam key ?_
  rw [Row.toKey?_get] at hkey
  rw [keyOf?, show ps.find? param = some d from hd, Option.bind_some, valueOf?, hsplit]
  dsimp only
  rwa [Assignment.input, Keyed.find?_of_mem (nodup_keys_split hsplit) hpart]

/-- The groups have every key that one of their rows has. -/
theorem mem_keys_group_of_ofRows {groups : Groups} (h : ofRows ps t rows = .ok groups)
    {param : String} {key : Key} (seen : ∃ row ∈ rows, keyOf? ps t row param = some key) :
    key ∈ (groups.group param).keys := by
  obtain ⟨row, hrow, hkey⟩ := seen
  obtain ⟨d, hd, hvalue⟩ := Option.bind_eq_some_iff.mp hkey
  rw [(group_of_ofRows hd h).1, List.mem_eraseDups, List.mem_filterMap]
  exact ⟨row, hrow, hvalue⟩

/-- The names of rows that were grouped are those of columns of the parameters. -/
theorem locate_of_ofRows {groups : Groups} (h : ofRows ps t rows = .ok groups) :
    ∀ row ∈ rows, ∀ name ∈ row.keys, ∃ place, locate t name = .ok place ∧ place.1 ∈ ps.names := by
  refine Outcome.foldlM_prefix_induction (P := fun done _ => ∀ row ∈ done, ∀ name ∈ row.keys,
    ∃ place, locate t name = .ok place ∧ place.1 ∈ ps.names) (List.forall_mem_nil _) ?_ h
  intro done row before after hdone hstep row' hrow'
  rcases List.mem_append.mp hrow' with hold | hnew
  · exact hdone row' hold
  · rw [List.mem_singleton.mp hnew]
    obtain ⟨parts, hsplit, hfold⟩ := Outcome.bind_eq_ok.mp hstep
    intro name hname
    obtain ⟨place, hplace, hpart⟩ := locate_of_split hsplit name hname
    obtain ⟨d, hd⟩ := find?_of_foldlM_add hfold place.1 hpart
    exact ⟨place, hplace, Keyed.has_iff.mp (Option.isSome_iff_exists.mpr ⟨d, hd⟩)⟩

end Groups

/-- A row among rows that were grouped is familiar. -/
theorem familiar_of_mem {groups : Groups} (h : Groups.ofRows ps t rows = .ok groups)
    (hrow : row ∈ rows) : Familiar ps t rows row :=
  ⟨Groups.locate_of_ofRows h row hrow, fun _ _ _ hkey => ⟨row, hrow, hkey⟩⟩

theorem Familiar.addRow {groups : Groups} (h : Groups.ofRows ps t rows = .ok groups)
    (familiar : Familiar ps t rows row) : Groups.addRow ps t groups row = .ok groups :=
  Groups.addRow_of_mem familiar.known fun param hparam key hkey =>
    Groups.mem_keys_group_of_ofRows h (familiar.keys param hparam key hkey)

/-- Rows that occur again, or whose keys and parameters all occur in other rows, leave the result as
it is: appending them gives the same records in the same order at every depth, or the same error. -/
theorem hydrate_append (h : ∀ row ∈ more, row ∈ rows ∨ Familiar s.params t rows row) :
    hydrate s t (rows ++ more) = hydrate s t rows := by
  have hgroups : Groups.ofRows s.params t (rows ++ more) = Groups.ofRows s.params t rows := by
    rw [Groups.ofRows, List.foldlM_append]
    cases hrows : Groups.ofRows s.params t rows with
    | error e =>
      rw [Groups.ofRows] at hrows
      rw [hrows]
      rfl
    | ok groups =>
      have hfixed : ∀ row ∈ more, Groups.addRow s.params t groups row = .ok groups := by
        intro row hrow
        rcases h row hrow with hmem | hfamiliar
        · exact (familiar_of_mem hrows hmem).addRow hrows
        · exact hfamiliar.addRow hrows
      rw [Groups.ofRows] at hrows
      rw [hrows, Outcome.ok_bind]
      exact Outcome.foldlM_of_fixed hfixed
  rw [hydrate, hydrate, hgroups]

/-- The order of `orderRows` under its customer once more, with another amount for its item, and the
customer alone, as a left join without a match gives it. -/
def familiarRows : List Row :=
  [.ofList [("_c0", .i64 1), ("_c1", .i64 8), ("_c2", .i64 1), ("_c3", .i64 5), ("_c4", .i64 8),
      ("_c5", .i64 7)],
    .ofList [("_c0", .i32 1), ("_c1", .null), ("_c2", .null)]]

theorem hydrate_append_familiarRows :
    (∀ row ∈ orderRows ++ familiarRows,
      row ∈ orderRows ∨ Familiar orderedItems.params orderAliases orderRows row) ∧
    List.map Record.key? <$> hydrate orderedItems orderAliases orderRows = .ok [some (.int 1)] ∧
    hydrate orderedItems orderAliases (orderRows ++ (orderRows ++ familiarRows)) =
      hydrate orderedItems orderAliases orderRows := by
  have hfamiliar : ∀ row ∈ familiarRows, Familiar orderedItems.params orderAliases orderRows row := by
    have hknown : ∀ row ∈ familiarRows, ∀ name ∈ row.keys, ∃ place ∈ orderAliases.columns,
        orderAliases.get? place.1 place.2 = some name ∧ place.1 ∈ orderedItems.params.names := by
      decide +kernel
    have hkeys : ∀ row ∈ familiarRows, ∀ param ∈ orderedItems.params.names,
        ∀ key ∈ keyOf? orderedItems.params orderAliases row param, ∃ row' ∈ orderRows,
          keyOf? orderedItems.params orderAliases row' param = some key := by
      decide +kernel
    intro row hrow
    refine ⟨fun name hname => ?_, hkeys row hrow⟩
    obtain ⟨place, -, hget, hparam⟩ := hknown row hrow name hname
    exact ⟨_, locate_of_get? hget, hparam⟩
  have hall : ∀ row ∈ orderRows ++ familiarRows,
      row ∈ orderRows ∨ Familiar orderedItems.params orderAliases orderRows row :=
    fun row hrow => (List.mem_append.mp hrow).imp id (hfamiliar row)
  exact ⟨hall, by cbv, hydrate_append hall⟩

end Graph
end RowGraph
