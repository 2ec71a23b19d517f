import RowGraph.Graph.Groups
import RowGraph.Proofs.Keyed
import RowGraph.Proofs.Outcome
import RowGraph.Proofs.Sql.Aliases

/-!
What the groups of a result hold.

A result row is taken apart without loss: the part of a parameter has, under each column, the value
that the row has under the alias of the column.  The group of a parameter then lists the keys of the
parameter in the order of their first appearance, each with the part of a row that has it.
-/

namespace RowGraph

/-- The key that a result row has for a parameter; none on the unmatched side of a left join. -/
def Parameters.keyIn? (ps : Parameters) (t : Sql.AliasTable) (row : Row) (param : String) :
    Option Key :=
  (ps.find? param).bind fun d => (t.valueIn? row param d.primaryKey).bind Value.toKey?

theorem Row.toKey?_get (row : Row) (name : String) :
    (row.get name).toKey? = (row.get? name).bind Value.toKey? := by
  rw [get]
  cases row.get? name with
  | none => rfl
  | some v => rfl

namespace Graph

variable {t : Sql.AliasTable} {ps : Parameters} {row : Row}

/-! ## Taking a row apart -/

theorem locate_of_get? {param column name : String} (h : t.get? param column = some name) :
    locate t name = .ok (param, Text.fold column) := by
  rw [locate, Sql.AliasTable.resolve?_of_get? h]

/-- A further entry gives its column a value and leaves the others alone. -/
theorem input_insert (parts : Keyed String Row) (param column : String) (v : Value)
    (param' column' : String) :
    Assignment.input (parts.change param .empty fun part => part.insert column v) param' column' =
      if param' = param ∧ Text.fold column' = Text.fold column then some v
      else Assignment.input parts param' column' := by
  rw [Assignment.input, Assignment.input, Keyed.change, Keyed.find?_put]
  by_cases hparam : param' = param
  · subst hparam
    rw [if_pos rfl, Option.bind_some]
    by_cases hcolumn : Text.fold column' = Text.fold column
    · rw [if_pos ⟨rfl, hcolumn⟩, ← Row.get?_fold, hcolumn, Row.get?_fold, Row.get?_insert_self]
    · rw [if_neg fun h => hcolumn h.2, Row.get?_insert_of_ne hcolumn]
      cases parts.find? param' with
      | none => rfl
      | some part => rfl
  · rw [if_neg hparam, if_neg fun h => hparam h.1]

/-- The parts hold the entries of a row that were met so far. -/
structure Parted (t : Sql.AliasTable) (row : Row) (done : Keyed String Value)
    (parts : Keyed String Row) : Prop where
  distinct : parts.keys.Nodup
  input : ∀ param column, Assignment.input parts param column =
    (t.get? param column).bind fun name => done.find? name
  keys : ∀ param ∈ parts.keys, ∃ column, ∃ name ∈ row.keys, t.get? param column = some name

theorem Parted.addEntry {done rest : Keyed String Value} {parts : Keyed String Row}
    {param column name : String} {v : Value} (h : Parted t row done parts)
    (hentries : row.entries = done ++ (name, v) :: rest) (hget : t.get? param column = some name) :
    Parted t row (done ++ [(name, v)])
      (parts.change param .empty fun part => part.insert (Text.fold column) v) := by
  refine ⟨Keyed.nodup_keys_put h.distinct, ?_, ?_⟩
  · intro param' column'
    rw [input_insert, Text.fold_fold, h.input]
    by_cases hsame : param' = param ∧ Text.fold column' = Text.fold column
    · obtain ⟨rfl, hcolumn⟩ := hsame
      -- The names of a row are distinct, so this one was not met before.
      have hnew : Keyed.find? name done = none := by
        rw [Keyed.find?_eq_none]
        intro hmem
        have hdistinct := row.distinct
        rw [hentries, Keyed.keys, List.map_append, List.nodup_append] at hdistinct
        exact hdistinct.2.2 name hmem name List.mem_cons_self rfl
      rw [if_pos ⟨rfl, hcolumn⟩, Sql.AliasTable.get?_congr hcolumn, hget, Option.bind_some,
        Keyed.find?_append, hnew, Option.none_or, Keyed.find?, if_pos rfl]
    · rw [if_neg hsame]
      cases hget' : t.get? param' column' with
      | none => rfl
      | some name' =>
        have hne : name ≠ name' := by
          rintro rfl
          exact hsame (Sql.AliasTable.eq_of_get? hget' hget)
        rw [Option.bind_some, Option.bind_some, Keyed.find?_append, Keyed.find?, if_neg hne,
          Keyed.find?, Option.or_none]
  · intro param' hparam'
    rcases Keyed.mem_keys_put.mp hparam' with rfl | hparam'
    · refine ⟨column, name, ?_, hget⟩
      rw [Row.keys, hentries]
      exact List.mem_map_of_mem (List.mem_append_right done List.mem_cons_self)
    · exact h.keys param' hparam'

/-- The parts of a row hold its values under the columns that its names are aliases of. -/
theorem split_eq (named : ∀ name ∈ row.keys, ∃ param column, t.get? param column = some name) :
    ∃ parts, split t row = .ok parts ∧ parts.keys.Nodup ∧
      (∀ param column, Assignment.input parts param column = t.valueIn? row param column) ∧
      ∀ param ∈ parts.keys, ∃ column, ∃ name ∈ row.keys, t.get? param column = some name := by
  have hstart : Parted t row [] [] := by
    refine ⟨List.nodup_nil, ?_, by simp⟩
    intro param column
    cases t.get? param column with
    | none => rfl
    | some name => rfl
  obtain ⟨parts, hparts, hparted⟩ := Outcome.exists_foldlM row.entries
    (f := addEntry t) hstart (by
    rintro done ⟨name, v⟩ rest parts hentries hparted
    have hname : name ∈ row.keys := by
      rw [Row.keys, hentries]
      exact List.mem_map_of_mem (List.mem_append_right done List.mem_cons_self)
    obtain ⟨param, column, hget⟩ := named name hname
    refine ⟨_, ?_, hparted.addEntry hentries hget⟩
    rw [addEntry, locate_of_get? hget]
    rfl)
  refine ⟨parts, hparts, hparted.distinct, ?_, hparted.keys⟩
  intro param column
  rw [hparted.input, Sql.AliasTable.valueIn?]
  cases hget : t.get? param column with
  | none => rfl
  | some name =>
    rw [Option.bind_some, Option.bind_some, Row.get?_eq, Sql.AliasTable.fold_of_get? hget]

namespace Groups

/-! ## Collecting the parts -/

/-- What is kept for a parameter, by key. -/
def group (groups : Groups) (param : String) : Keyed Key Row :=
  (groups.find? param).getD []

theorem rows_eq (groups : Groups) (param : String) :
    groups.rows param = (groups.group param).map Prod.snd := rfl

theorem group_empty (ps : Parameters) (param : String) : (empty ps).group param = [] := by
  rw [group]
  cases hfind : (empty ps).find? param with
  | none => rfl
  | some found =>
    obtain ⟨entry, -, hentry⟩ := List.mem_map.mp (Keyed.mem_of_find? hfind)
    injection hentry with _ hfound
    rw [Option.getD_some, hfound]

/-- A group with the part of a further row, which is kept if it has a key that is new. -/
def keepPart (d : Descriptor) (part : Row) (group : Keyed Key Row) : Keyed Key Row :=
  match (part.get d.primaryKey).toKey? with
  | none => group
  | some key => group.putNew key part

theorem add_eq (groups : Groups) {param : String} (part : Row) {d : Descriptor}
    (hd : ps.find? param = some d) :
    ∃ groups', add ps groups (param, part) = .ok groups' ∧ ∀ param', groups'.group param' =
      if param' = param then keepPart d part (groups.group param) else groups.group param' := by
  rw [add, hd]
  simp only [keepPart]
  cases (part.get d.primaryKey).toKey? with
  | none =>
    refine ⟨groups, rfl, fun param' => ?_⟩
    split
    next h => rw [h]
    next => rfl
  | some key =>
    refine ⟨_, rfl, fun param' => ?_⟩
    rw [group, Keyed.change, Keyed.find?_put]
    split
    next => rfl
    next => rfl

/-- The groups differ from what they were by the parts of a row that were met so far. -/
structure Added (ps : Parameters) (before : Groups) (done : Keyed String Row) (after : Groups) :
    Prop where
  same : ∀ param, param ∉ done.keys → after.group param = before.group param
  kept : ∀ param part d, (param, part) ∈ done → ps.find? param = some d →
    after.group param = keepPart d part (before.group param)

theorem Added.add {before groups : Groups} {done : Keyed String Row} {param : String} {part : Row}
    {d : Descriptor} (h : Added ps before done groups) (hnew : param ∉ done.keys)
    (hd : ps.find? param = some d) :
    ∃ after, add ps groups (param, part) = .ok after ∧
      Added ps before (done ++ [(param, part)]) after := by
  obtain ⟨after, hadd, hafter⟩ := add_eq groups part hd
  refine ⟨after, hadd, fun param' hparam' => ?_, fun param' part' d' hpart hd' => ?_⟩
  · rw [Keyed.keys, List.map_append, List.mem_append, not_or] at hparam'
    have hne : param' ≠ param := fun he => hparam'.2 (he ▸ List.mem_cons_self)
    rw [hafter, if_neg hne, h.same param' hparam'.1]
  · rw [hafter]
    rcases List.mem_append.mp hpart with hpart | hpart
    · have hne : param' ≠ param := fun he => hnew (he ▸ Keyed.mem_keys_of_mem hpart)
      rw [if_neg hne, h.kept param' part' d' hpart hd']
    · rw [List.mem_singleton] at hpart
      cases hpart
      rw [hd] at hd'
      cases hd'
      rw [if_pos rfl, h.same param hnew]

/-- The parts of a row are added if their parameters are known. -/
theorem exists_foldlM_add (groups : Groups) {parts : Keyed String Row}
    (distinct : parts.keys.Nodup) (known : ∀ param ∈ parts.keys, ∃ d, ps.find? param = some d) :
    ∃ after, parts.foldlM (add ps) groups = .ok after ∧ Added ps groups parts after := by
  have hstart : Added ps groups [] groups := ⟨fun _ _ => rfl, by simp⟩
  refine Outcome.exists_foldlM parts hstart ?_
  rintro done ⟨param, part⟩ rest before hparts hbefore
  have hmem : param ∈ parts.keys := by
    rw [hparts]
    exact List.mem_map_of_mem (List.mem_append_right done List.mem_cons_self)
  have hnew : param ∉ Keyed.keys done := by
    rw [hparts, Keyed.keys, List.map_append, List.nodup_append] at distinct
    exact fun hdone => distinct.2.2 param hdone param List.mem_cons_self rfl
  obtain ⟨d, hd⟩ := known param hmem
  exact hbefore.add hnew hd

/-- A result row is added part by part if its names are aliases of columns of the statement. -/
theorem addRow_split (groups : Groups) (named : ∀ name ∈ row.keys, ∃ param column,
      t.get? param column = some name ∧ (ps.find? param).isSome = true) :
    ∃ parts after, split t row = .ok parts ∧ addRow ps t groups row = .ok after ∧
      (∀ param column, Assignment.input parts param column = t.valueIn? row param column) ∧
      (∀ param ∈ parts.keys, ∃ d, ps.find? param = some d) ∧ Added ps groups parts after := by
  have hnamed : ∀ name ∈ row.keys, ∃ param column, t.get? param column = some name := by
    intro name hname
    obtain ⟨param, column, hget, -⟩ := named name hname
    exact ⟨param, column, hget⟩
  obtain ⟨parts, hsplit, hdistinct, hinput, hkeys⟩ := split_eq hnamed
  have hknown : ∀ param ∈ parts.keys, ∃ d, ps.find? param = some d := by
    intro param hparam
    obtain ⟨column, name, hname, hget⟩ := hkeys param hparam
    obtain ⟨param', column', hget', hsome⟩ := named name hname
    rw [(Sql.AliasTable.eq_of_get? hget hget').1]
    exact Option.isSome_iff_exists.mp hsome
  obtain ⟨after, hfold, hafter⟩ := exists_foldlM_add groups hdistinct hknown
  refine ⟨parts, after, hsplit, ?_, hinput, hknown, hafter⟩
  rw [addRow, hsplit]
  exact hfold

/-- What a further row adds to the group of a parameter: the part of the row, if it has a key that
is new. -/
theorem addRow_eq (groups : Groups) (named : ∀ name ∈ row.keys, ∃ param column,
      t.get? param column = some name ∧ (ps.find? param).isSome = true) :
    ∃ groups', addRow ps t groups row = .ok groups' ∧ ∀ param,
      (ps.keyIn? t row param = none ∧ groups'.group param = groups.group param) ∨
      ∃ key part, ps.keyIn? t row param = some key ∧
        groups'.group param = (groups.group param).putNew key part ∧
        ∀ column, part.get? column = t.valueIn? row param column := by
  obtain ⟨parts, after, -, hadd, hinput, hknown, hafter⟩ := addRow_split groups named
  refine ⟨after, hadd, fun param => ?_⟩
  rw [Parameters.keyIn?]
  cases hpart : parts.find? param with
  | none =>
    refine Or.inl ⟨?_, hafter.same param (Keyed.find?_eq_none.mp hpart)⟩
    cases ps.find? param with
    | none => rfl
    | some d =>
      rw [Option.bind_some, ← hinput, Assignment.input, hpart]
      rfl
  | some part =>
    have hentry := Keyed.mem_of_find? hpart
    obtain ⟨d, hd⟩ := hknown param (Keyed.mem_keys_of_mem hentry)
    have hvalues : ∀ column, part.get? column = t.valueIn? row param column := by
      intro column
      rw [← hinput, Assignment.input, hpart, Option.bind_some]
    rw [hd, Option.bind_some, hafter.kept param part d hentry hd, keepPart, Row.toKey?_get,
      hvalues]
    cases (t.valueIn? row param d.primaryKey).bind Value.toKey? with
    | none => exact Or.inl ⟨rfl, rfl⟩
    | some key => exact Or.inr ⟨key, part, rfl, rfl, hvalues⟩

/-! ## The groups of a result -/

/-- The keys that a result has for a parameter, each once, in the order of first appearance. -/
def keysOf (ps : Parameters) (t : Sql.AliasTable) (rows : List Row) (param : String) : List Key :=
  (rows.filterMap fun row => ps.keyIn? t row param).eraseDups

theorem keysOf_concat (rows : List Row) (row : Row) (param : String) :
    keysOf ps t (rows ++ [row]) param =
      match ps.keyIn? t row param with
      | none => keysOf ps t rows param
      | some key =>
        if key ∈ keysOf ps t rows param then keysOf ps t rows param
        else keysOf ps t rows param ++ [key] := by
  rw [keysOf, List.filterMap_append, List.filterMap_cons, List.filterMap_nil]
  cases hkey : ps.keyIn? t row param with
  | none =>
    rw [List.append_nil]
    rfl
  | some key =>
    simp only [keysOf, List.mem_eraseDups]
    exact eraseDups_concat _ key

/-- The groups hold what the rows have for the parameters. -/
structure Collect (ps : Parameters) (t : Sql.AliasTable) (rows : List Row) (groups : Groups) :
    Prop where
  keys : ∀ param, (groups.group param).keys = keysOf ps t rows param
  parts : ∀ param, ∀ entry ∈ groups.group param, ∃ row ∈ rows,
    ps.keyIn? t row param = some entry.1 ∧
      ∀ column, entry.2.get? column = t.valueIn? row param column

theorem ofRows_eq {rows : List Row} (named : ∀ row ∈ rows, ∀ name ∈ row.keys, ∃ param column,
      t.get? param column = some name ∧ (ps.find? param).isSome = true) :
    ∃ groups, ofRows ps t rows = .ok groups ∧ Collect ps t rows groups := by
  rw [ofRows]
  refine Outcome.exists_foldlM rows (P := fun done groups => Collect ps t done groups) ?_ ?_
  · refine ⟨fun param => ?_, fun param entry hentry => ?_⟩
    · rw [group_empty]
      rfl
    · rw [group_empty] at hentry
      cases hentry
  · intro done row rest groups hrows hgroups
    have hmem : row ∈ rows := by
      rw [hrows]
      exact List.mem_append_right done List.mem_cons_self
    obtain ⟨groups', hadd, hafter⟩ := addRow_eq groups (named row hmem)
    refine ⟨groups', hadd, fun param => ?_, fun param entry hentry => ?_⟩
    · rw [keysOf_concat]
      rcases hafter param with ⟨hkey, hgroup⟩ | ⟨key, part, hkey, hgroup, -⟩
      · rw [hkey, hgroup, hgroups.keys]
      · rw [hkey, hgroup, Keyed.keys_putNew, hgroups.keys]
    · have hold : entry ∈ groups.group param → ∃ row' ∈ done ++ [row],
          ps.keyIn? t row' param = some entry.1 ∧
            ∀ column, entry.2.get? column = t.valueIn? row' param column := by
        intro hentry
        obtain ⟨row', hrow', hentry⟩ := hgroups.parts param entry hentry
        exact ⟨row', List.mem_append_left _ hrow', hentry⟩
      rcases hafter param with ⟨-, hgroup⟩ | ⟨key, part, hkey, hgroup, hvalues⟩
      · exact hold (hgroup ▸ hentry)
      · rw [hgroup] at hentry
        rcases Keyed.mem_of_mem_putNew hentry with hentry | rfl
        · exact hold hentry
        · exact ⟨row, List.mem_append_right done List.mem_cons_self, hkey, hvalues⟩

end Groups
end Graph
end RowGraph
