import RowGraph.Proofs.Graph.Collections
import RowGraph.Proofs.Graph.RowChange
import RowGraph.Proofs.Statement.Scoping

/-!
Projections leave the graph alone.

A projection leaves out columns, but neither keys nor the columns by which rows are paired.  The
rows of a result without the columns that are left out are therefore grouped by the same keys and
paired in the same way, and they make the same records, without the values of these columns.
-/

namespace RowGraph

/-! ## What is left of rows and records -/

namespace Select

instance (t : Select) (param column : String) : Decidable (t.ReadsAs param column) :=
  decidable_of_iff (∃ place ∈ t.readColumns,
      place.1 = param ∧ Text.fold place.2 = Text.fold column) (by
    constructor
    · rintro ⟨place, hplace, rfl, hfold⟩
      exact ⟨place.2, hplace, hfold⟩
    · rintro ⟨name, hplace, hfold⟩
      exact ⟨(param, name), hplace, rfl, hfold⟩)

/-- Whether a column of a result is one that the selection reads, in whatever spelling. -/
def keeps (t : Select) (param column : String) : Bool :=
  decide (t.ReadsAs param column)

/-- The entry of a result row under the alias that its column has in another table of aliases, if
the selection reads the column. -/
def rekeyEntry (t : Select) (old new : Sql.AliasTable) (entry : String × Value) :
    Option (String × Value) := do
  let (param, column) ← old.resolve? entry.1
  if t.keeps param column then
    let name ← new.get? param column
    return (name, entry.2)
  else none

/-- A result row under other aliases, with nothing but what the selection reads. -/
def rekey (t : Select) (old new : Sql.AliasTable) (row : Row) : Row :=
  .ofList (row.entries.filterMap (t.rekeyEntry old new))

/-- The keys of the links are columns of their tables, spelled as these are. -/
structure KeysNamed (s : Select) : Prop where
  primary : ∀ l ∈ s.links, ∀ d, s.params.find? l.left = some d →
    l.primaryKey ∈ d.columns.map Column.name
  foreign : ∀ l ∈ s.links, ∀ d, s.params.find? l.right = some d →
    l.foreignKey ∈ d.columns.map Column.name

/-- The names of a result row are aliases of columns that the selection reads. -/
def NamedBy (s : Select) (aliases : Sql.AliasTable) (row : Row) : Prop :=
  ∀ name ∈ row.keys, ∃ place ∈ s.readColumns, aliases.get? place.1 place.2 = some name

variable {c : Catalogue} {s t : Select}

theorem keeps_fold {param column : String} :
    t.keeps param (Text.fold column) = true ↔ t.ReadsAs param column := by
  rw [keeps, decide_eq_true_eq, ReadsAs, ReadsAs, Text.fold_fold]

/-- No projection leaves out the key of a parameter. -/
theorem WellFormed.keeps_primaryKey (ht : t.WellFormed c) {param : String} {d : Descriptor}
    (hd : t.params.find? param = some d) : t.keeps param (Text.fold d.primaryKey) = true := by
  obtain ⟨registered, hresolved⟩ := ht.described _ (Keyed.mem_of_find? hd)
  have hreads : t.reads param d.primaryKey = true := by
    rw [reads]
    cases t.projection with
    | none => rfl
    | some wanted => simp [isKey, hd]
  have hread := (mem_readColumns ht hd).mpr
    ⟨Catalogue.primaryKey_mem_names hresolved, hreads⟩
  exact keeps_fold.mpr ⟨d.primaryKey, hread, rfl⟩

theorem keeps_of_isLinkKey (ht : t.WellFormed c) {param column : String} {d : Descriptor}
    (hd : t.params.find? param = some d) (hcolumn : column ∈ d.columns.map Column.name)
    (hkey : t.isLinkKey param column = true) : t.keeps param (Text.fold column) = true :=
  keeps_fold.mpr ⟨column, (mem_readColumns ht hd).mpr ⟨hcolumn, reads_of_isLinkKey hkey⟩, rfl⟩

end Select

mutual

/-- A record and all that is below it without the columns that the selection does not read. -/
def Record.project (t : Select) : Record → Record
  | ⟨d, param, row, relations⟩ =>
    ⟨d, param, row.project (t.keeps param), Record.projectRelations t relations⟩

def Record.projectRelations (t : Select) : List (String × List Record) → List (String × List Record)
  | [] => []
  | (member, records) :: rest =>
    (member, Record.projectAll t records) :: Record.projectRelations t rest

def Record.projectAll (t : Select) : List Record → List Record
  | [] => []
  | r :: rest => r.project t :: Record.projectAll t rest

end

namespace Record

mutual

/-- A projection of a record changes its rows and those below it. -/
theorem project_eq (t : Select) : (r : Record) →
    r.project t = r.mapRows fun param => Row.project (t.keeps param)
  | ⟨d, param, row, relations⟩ => by
    rw [project, mapRows, projectRelations_eq t relations]

theorem projectRelations_eq (t : Select) : (relations : List (String × List Record)) →
    projectRelations t relations = mapRelations (fun param => Row.project (t.keeps param)) relations
  | [] => rfl
  | (member, records) :: rest => by
    rw [projectRelations, mapRelations, projectAll_eq t records, projectRelations_eq t rest]

theorem projectAll_eq (t : Select) : (records : List Record) →
    projectAll t records = mapAll (fun param => Row.project (t.keeps param)) records
  | [] => rfl
  | r :: rest => by
    rw [projectAll, mapAll, project_eq t r, projectAll_eq t rest]

end

end Record

/-! ## Rows under other aliases -/

namespace Select

variable {c : Catalogue} {s t : Select} {old new : Sql.AliasTable} {row : Row}

theorem rekeyEntry_eq {param column name : String} (h : old.get? param column = some name)
    (v : Value) :
    t.rekeyEntry old new (name, v) =
      if t.keeps param (Text.fold column) then (new.get? param column).map (·, v) else none := by
  rw [rekeyEntry, Sql.AliasTable.resolve?_of_get? h,
    ← Sql.AliasTable.get?_congr (t := new) (Text.fold_fold column)]
  show (if _ then _ else _) = _
  split
  next => cases new.get? param (Text.fold column) <;> rfl
  next => rfl

theorem exists_of_rekeyEntry {param column : String} {entry entry' : String × Value}
    (h : old.get? param column = some entry.1) (hentry : t.rekeyEntry old new entry = some entry') :
    t.ReadsAs param column ∧ new.get? param column = some entry'.1 := by
  obtain ⟨name, v⟩ := entry
  rw [rekeyEntry_eq h] at hentry
  split at hentry
  next hkeeps =>
    obtain ⟨name', hname', rfl⟩ := Option.map_eq_some_iff.mp hentry
    exact ⟨keeps_fold.mp hkeeps, hname'⟩
  next => cases hentry

/-- The entries stay in their order. -/
theorem entries_rekey (named : s.NamedBy old row) :
    (t.rekey old new row).entries = row.entries.filterMap (t.rekeyEntry old new) := by
  refine Row.entries_ofList ?_ ?_
  · intro name hname
    obtain ⟨entry', hentry', rfl⟩ := List.mem_map.mp hname
    obtain ⟨entry, hentry, hrekey⟩ := List.mem_filterMap.mp hentry'
    obtain ⟨place, -, hget⟩ := named entry.1 (Keyed.mem_keys_of_mem hentry)
    exact Sql.AliasTable.fold_of_get? (exists_of_rekeyEntry hget hrekey).2
  · refine List.pairwise_map.mpr (List.pairwise_filterMap.mpr ?_)
    refine (List.pairwise_map.mp row.distinct).imp_of_mem ?_
    intro a b ha hb hne a' ha' b' hb' heq
    obtain ⟨place, -, hget⟩ := named a.1 (Keyed.mem_keys_of_mem ha)
    obtain ⟨place', -, hget'⟩ := named b.1 (Keyed.mem_keys_of_mem hb)
    have hnew := (exists_of_rekeyEntry hget ha').2
    have hnew' := (exists_of_rekeyEntry hget' hb').2
    -- One new alias stands for one column, and this has one old alias.
    rw [← heq] at hnew'
    obtain ⟨hparam, hcolumn⟩ := Sql.AliasTable.eq_of_get? hnew hnew'
    rw [hparam, Sql.AliasTable.get?_congr hcolumn, hget', Option.some.injEq] at hget
    exact hne hget.symm

theorem namedBy_rekey (named : s.NamedBy old row) : t.NamedBy new (t.rekey old new row) := by
  intro name hname
  rw [Row.keys, entries_rekey named] at hname
  obtain ⟨entry', hentry', rfl⟩ := List.mem_map.mp hname
  obtain ⟨entry, hentry, hrekey⟩ := List.mem_filterMap.mp hentry'
  obtain ⟨place, -, hget⟩ := named entry.1 (Keyed.mem_keys_of_mem hentry)
  obtain ⟨⟨column, hplace, hfold⟩, hnew⟩ := exists_of_rekeyEntry hget hrekey
  exact ⟨(place.1, column), hplace, (Sql.AliasTable.get?_congr hfold).trans hnew⟩

end Select

namespace Graph

variable {c : Catalogue} {s t : Select} {old new : Sql.AliasTable} {row : Row} {rows : List Row}

/-- The parts on the right are those on the left without what the selection does not read. -/
def ProjectedParts (t : Select) (parts parts' : Keyed String Row) : Prop :=
  ∀ param, (parts'.find? param).getD .empty =
    ((parts.find? param).getD .empty).project (t.keeps param)

theorem ProjectedParts.addEntry {parts parts' after after' : Keyed String Row}
    (h : ProjectedParts t parts parts') {param column name name' : String}
    (hold : old.get? param column = some name) (hnew : new.get? param column = some name')
    (hkeeps : t.keeps param (Text.fold column) = true) {v : Value}
    (hadd : addEntry old parts (name, v) = .ok after)
    (hadd' : addEntry new parts' (name', v) = .ok after') : ProjectedParts t after after' := by
  rw [Graph.addEntry, locate_of_get? hold] at hadd
  rw [Graph.addEntry, locate_of_get? hnew] at hadd'
  cases hadd
  cases hadd'
  intro param'
  rw [Keyed.change, Keyed.change, Keyed.find?_put, Keyed.find?_put]
  by_cases hparam : param' = param
  · rw [if_pos hparam, if_pos hparam, Option.getD_some, Option.getD_some, h, hparam,
      Row.project_insert, Text.fold_fold, if_pos hkeeps]
  · rw [if_neg hparam, if_neg hparam, h]

theorem ProjectedParts.skipEntry {parts parts' after : Keyed String Row}
    (h : ProjectedParts t parts parts') {param column name : String}
    (hold : old.get? param column = some name)
    (hkeeps : ¬t.keeps param (Text.fold column) = true) {v : Value}
    (hadd : Graph.addEntry old parts (name, v) = .ok after) : ProjectedParts t after parts' := by
  rw [Graph.addEntry, locate_of_get? hold] at hadd
  cases hadd
  intro param'
  rw [Keyed.change, Keyed.find?_put]
  by_cases hparam : param' = param
  · rw [if_pos hparam, Option.getD_some, h, hparam, Row.project_insert, Text.fold_fold,
      if_neg hkeeps]
  · rw [if_neg hparam, h]

/-- Taken apart, a row under other aliases gives what is left of the parts of the row. -/
theorem projectedParts_foldlM (aliased : ∀ place ∈ t.readColumns,
      (new.get? place.1 place.2).isSome = true) {entries : Keyed String Value}
    (named : ∀ entry ∈ entries, ∃ param column, old.get? param column = some entry.1)
    {parts parts' after after' : Keyed String Row} (hparts : ProjectedParts t parts parts')
    (h : entries.foldlM (addEntry old) parts = .ok after)
    (h' : (entries.filterMap (t.rekeyEntry old new)).foldlM (addEntry new) parts' = .ok after') :
    ProjectedParts t after after' := by
  induction entries generalizing parts parts' with
  | nil =>
    cases h
    cases h'
    exact hparts
  | cons entry rest ih =>
    have hrest : ∀ entry ∈ rest, ∃ param column, old.get? param column = some entry.1 :=
      fun entry hentry => named entry (List.mem_cons_of_mem _ hentry)
    obtain ⟨param, column, hold⟩ := named entry List.mem_cons_self
    rw [List.foldlM_cons, Outcome.bind_eq_ok] at h
    obtain ⟨next, hnext, h⟩ := h
    have hentry : t.rekeyEntry old new entry = _ := Select.rekeyEntry_eq hold entry.2
    by_cases hkeeps : t.keeps param (Text.fold column) = true
    · obtain ⟨spelled, hplace, hfold⟩ := Select.keeps_fold.mp hkeeps
      obtain ⟨name, hname⟩ := Option.isSome_iff_exists.mp (aliased _ hplace)
      rw [Sql.AliasTable.get?_congr hfold] at hname
      rw [if_pos hkeeps, hname] at hentry
      rw [List.filterMap_cons_some hentry, List.foldlM_cons, Outcome.bind_eq_ok] at h'
      obtain ⟨next', hnext', h'⟩ := h'
      exact ih hrest (hparts.addEntry hold hname hkeeps hnext hnext') h h'
    · rw [if_neg hkeeps] at hentry
      rw [List.filterMap_cons_none hentry] at h'
      exact ih hrest (hparts.skipEntry hold hkeeps hnext) h h'

theorem projectedParts_split (aliased : ∀ place ∈ t.readColumns,
      (new.get? place.1 place.2).isSome = true) (named : s.NamedBy old row)
    {parts parts' : Keyed String Row} (h : split old row = .ok parts)
    (h' : split new (t.rekey old new row) = .ok parts') : ProjectedParts t parts parts' := by
  have hnamed : ∀ entry ∈ row.entries, ∃ param column, old.get? param column = some entry.1 := by
    intro entry hentry
    obtain ⟨place, -, hget⟩ := named entry.1 (Keyed.mem_keys_of_mem hentry)
    exact ⟨place.1, place.2, hget⟩
  have hstart : ProjectedParts t [] [] := fun param => (Row.project_empty _).symm
  rw [split, Select.entries_rekey named] at h'
  exact projectedParts_foldlM aliased hnamed hstart h h'

/-! ## Groups without what is not read -/

/-- The groups on the right have the keys of those on the left, each with its row without what the
selection does not read. -/
def ProjectedGroups (t : Select) (groups groups' : Groups) : Prop :=
  ∀ param d, t.params.find? param = some d →
    groups'.group param = (groups.group param).mapValues (Row.project (t.keeps param))

theorem keepPart_project {d : Descriptor} {keep : String → Bool}
    (hkey : keep (Text.fold d.primaryKey) = true) (part : Row) (group : Keyed Key Row) :
    Groups.keepPart d (part.project keep) (group.mapValues (Row.project keep)) =
      (Groups.keepPart d part group).mapValues (Row.project keep) := by
  rw [Groups.keepPart, Groups.keepPart, Row.toKey?_get, Row.toKey?_get,
    Row.get?_project_of_keep keep hkey]
  cases (part.get? d.primaryKey).bind Value.toKey? with
  | none => rfl
  | some key => exact Keyed.putNew_mapValues _ key part group

/-- What the group of a parameter becomes when the parts of a row are added. -/
theorem Groups.Added.group_eq {ps : Parameters} {before after : Groups} {parts : Keyed String Row}
    (h : Added ps before parts after) {param : String} {d : Descriptor}
    (hd : ps.find? param = some d) :
    after.group param = keepPart d ((parts.find? param).getD .empty) (before.group param) := by
  cases hpart : parts.find? param with
  | none => exact h.same param (Keyed.find?_eq_none.mp hpart)
  | some part => exact h.kept param part d (Keyed.mem_of_find? hpart) hd

theorem named_of_namedBy (hs : s.WellFormed c) (named : s.NamedBy old row) :
    ∀ name ∈ row.keys, ∃ param column,
      old.get? param column = some name ∧ (s.params.find? param).isSome = true := by
  intro name hname
  obtain ⟨place, hplace, hget⟩ := named name hname
  obtain ⟨d, hd⟩ := exists_param hs hplace
  exact ⟨place.1, place.2, hget, by rw [hd]; rfl⟩

/-- A row that is added on the left, and under other aliases on the right, keeps the groups so. -/
theorem projectedGroups_addRow (hs : s.WellFormed c) (ht : t.WellFormed c)
    (hparams : t.params = s.params) (aliased : ∀ place ∈ t.readColumns,
      (new.get? place.1 place.2).isSome = true) (named : s.NamedBy old row)
    {before before' : Groups} (h : ProjectedGroups t before before') :
    ∃ after after', Groups.addRow s.params old before row = .ok after ∧
      Groups.addRow t.params new before' (t.rekey old new row) = .ok after' ∧
      ProjectedGroups t after after' := by
  obtain ⟨parts, after, hsplit, hadd, -, -, hadded⟩ :=
    Groups.addRow_split before (named_of_namedBy hs named)
  obtain ⟨parts', after', hsplit', hadd', -, -, hadded'⟩ :=
    Groups.addRow_split before' (named_of_namedBy ht (Select.namedBy_rekey named))
  refine ⟨after, after', hadd, hadd', fun param d hd => ?_⟩
  rw [hadded'.group_eq hd, hadded.group_eq (hparams ▸ hd), h param d hd,
    projectedParts_split aliased named hsplit hsplit' param]
  exact keepPart_project (ht.keeps_primaryKey hd) _ _

/-- The groups of a result under other aliases are those of the result without what the selection
does not read. -/
theorem projectedGroups_ofRows (hs : s.WellFormed c) (ht : t.WellFormed c)
    (hparams : t.params = s.params) (aliased : ∀ place ∈ t.readColumns,
      (new.get? place.1 place.2).isSome = true) (named : ∀ row ∈ rows, s.NamedBy old row) :
    ∃ groups groups', Groups.ofRows s.params old rows = .ok groups ∧
      Groups.ofRows t.params new (rows.map (t.rekey old new)) = .ok groups' ∧
      ProjectedGroups t groups groups' := by
  have hstart : ProjectedGroups t (Groups.empty s.params) (Groups.empty t.params) := by
    intro param d _
    rw [Groups.group_empty, Groups.group_empty]
    rfl
  rw [Groups.ofRows, Groups.ofRows]
  generalize Groups.empty s.params = before at hstart
  generalize Groups.empty t.params = before' at hstart
  induction rows generalizing before before' with
  | nil => exact ⟨before, before', rfl, rfl, hstart⟩
  | cons row rest ih =>
    obtain ⟨after, after', hadd, hadd', hafter⟩ :=
      projectedGroups_addRow hs ht hparams aliased (named row List.mem_cons_self) hstart
    rw [List.map_cons, List.foldlM_cons, List.foldlM_cons, hadd, hadd']
    exact ih (fun row' hrow' => named row' (List.mem_cons_of_mem row hrow')) after after' hafter

theorem ProjectedGroups.rows_eq {groups groups' : Groups} (h : ProjectedGroups t groups groups')
    {param : String} {d : Descriptor} (hd : t.params.find? param = some d) :
    groups'.rows param = (groups.rows param).map (Row.project (t.keeps param)) := by
  rw [Groups.rows_eq, Groups.rows_eq, h param d hd, Keyed.mapValues, List.map_map, List.map_map]
  rfl

/-! ## Records without what is not read -/

/-- A link pairs two rows by their keys alone. -/
theorem pairs_project {l : Link} (hne : l.left ≠ l.right) {left right : String → Bool}
    (hleft : left (Text.fold l.primaryKey) = true)
    (hright : right (Text.fold l.foreignKey) = true) (leftRow rightRow : Row) :
    l.pairs (leftRow.project left) (rightRow.project right) = l.pairs leftRow rightRow := by
  simp only [Link.pairs, Link.predicate, Condition.evalBool, Condition.eq, Condition.eval,
    Condition.read, Link.input_pair_left, Link.input_pair_right hne,
    Row.get?_project_of_keep left hleft, Row.get?_project_of_keep right hright]

/-- The record of a row without the columns that the selection does not read is the record of the
row, without these columns: the links pair the rows by keys, which the selection reads. -/
theorem recordOf_project (hs : s.WellFormed c) (ht : t.WellFormed c) (hparams : t.params = s.params)
    (hall : t.links = s.links) (keys : s.KeysNamed) {groups groups' : Groups}
    (hgroups : ProjectedGroups t groups groups') (param : String) (row : Row) :
    recordOf t.params groups' t.links param (row.project (t.keeps param)) =
      Record.project t <$> recordOf s.params groups s.links param row := by
  have hproject : Record.project t = Record.mapRows fun param => Row.project (t.keeps param) :=
    funext (Record.project_eq t)
  rw [hparams, hall, hproject]
  refine recordOf_mapRows (f := fun param => Row.project (t.keeps param)) ?_ ?_ param row
  · intro l hl
    obtain ⟨owner, target, relation, hfollows⟩ := hs.follows l hl
    exact hgroups.rows_eq (hparams ▸ hfollows.right)
  · intro l hl leftRow rightRow
    obtain ⟨owner, target, relation, hfollows⟩ := hs.follows l hl
    refine pairs_project (hs.left_ne_right hl) ?_ ?_ leftRow rightRow
    · exact Select.keeps_of_isLinkKey ht (hparams ▸ hfollows.left)
        (keys.primary l hl owner hfollows.left) (Select.isLinkKey_primaryKey (hall ▸ hl))
    · exact Select.keeps_of_isLinkKey ht (hparams ▸ hfollows.right)
        (keys.foreign l hl target hfollows.right) (Select.isLinkKey_foreignKey (hall ▸ hl))

/-! ## Keys -/

/-- The record and all that is below it are described as their parameters are. -/
def Described (ps : Parameters) (root : Record) : Prop :=
  ∀ r : Record, r.Within root → ps.find? r.param = some r.descriptor

theorem described_record {ps : Parameters} {param : String} {found : Keyed String (List Record)}
    (hfound : ∀ entry ∈ found, ∀ b ∈ entry.2, Described ps b) {root : Record}
    (h : record ps param row (merged found) = .ok root) : Described ps root := by
  rw [record] at h
  split at h
  next d hd =>
    cases h
    intro r hr
    cases hr with
    | self => exact hd
    | under hrelated hb hr =>
      rw [related?_eq rfl, Option.map_eq_some_iff] at hrelated
      obtain ⟨entry, hentry, rfl⟩ := hrelated
      exact hfound entry (List.mem_reverse.mp (List.mem_of_find?_eq_some hentry)) _ hb r hr
  next => cases h

theorem described_related {ps : Parameters} {groups : Groups} {links : List Link} {param : String}
    {found : Keyed String (List Record)} (h : related ps groups links param row = .ok found) :
    ∀ entry ∈ found, ∀ b ∈ entry.2, Described ps b := by
  induction links generalizing param row found with
  | nil =>
    cases h
    simp
  | cons link links ih =>
    rw [related] at h
    split at h
    next =>
      obtain ⟨records, hrecords, h⟩ := Outcome.bind_eq_ok.mp h
      obtain ⟨further, hfurther, h⟩ := Outcome.bind_eq_ok.mp h
      cases h
      refine List.forall_mem_cons.mpr ⟨fun b hb => ?_, ih hfurther⟩
      obtain ⟨candidate, -, hb⟩ := Outcome.exists_of_mem_filterMapM hrecords hb
      obtain ⟨paired, -, hb⟩ := Outcome.bind_eq_ok.mp hb
      cases paired with
      | false => cases hb
      | true =>
        obtain ⟨below, hbelow, hb⟩ := Outcome.bind_eq_ok.mp hb
        obtain ⟨made, hmade, hb⟩ := Outcome.bind_eq_ok.mp hb
        cases hb
        exact described_record (ih hbelow) hmade
    next => exact ih h

theorem described_of_hydrate {records : List Record} (h : hydrate s old rows = .ok records) :
    ∀ root ∈ records, Described s.params root := by
  obtain ⟨groups, -, h⟩ := Outcome.bind_eq_ok.mp h
  intro root hroot
  obtain ⟨row, -, hrow⟩ := Outcome.exists_of_mem_mapM h hroot
  obtain ⟨found, hfound, hrecord⟩ := Outcome.bind_eq_ok.mp hrow
  exact described_record (described_related hfound) hrecord

theorem key?_project (ht : t.WellFormed c) {r : Record}
    (hd : t.params.find? r.param = some r.descriptor) : (r.project t).key? = r.key? := by
  obtain ⟨d, param, row, relations⟩ := r
  rw [Record.project, Record.key?, Record.key?, Row.toKey?_get, Row.toKey?_get,
    Row.get?_project_of_keep _ (ht.keeps_primaryKey hd)]

/-! ## Hydration under a projection -/

/-- A projection of a selection is written wherever the selection is. -/
theorem exists_serialize_columns {wanted : List (String × String)} (h : s.columns wanted = .ok t)
    {format : Sql.Format} {start : Sql.AliasTable} {f : Sql.Formatted}
    (hf : format.serialize (.select s) start = .ok f) (start' : Sql.AliasTable) :
    ∃ f', format.serialize (.select t) start' = .ok f' := by
  obtain ⟨found, -, rfl⟩ := Select.columns_eq_ok h
  simp only [Sql.Format.serialize, Outcome.bind_eq_ok] at hf ⊢
  obtain ⟨followUp, hfollow, checked, hcalls, -⟩ := hf
  exact ⟨_, followUp, hfollow, checked, hcalls, rfl⟩

/-- A projection leaves the graph as it is.  Hydrating a result without the columns that the
projection leaves out fails as hydrating the whole result does, or gives the same records, under the
same keys and in the same order at every depth, without the values of these columns. -/
theorem hydrate_columns (h : s.Reached c) (keys : s.KeysNamed) {wanted : List (String × String)}
    (ht : s.columns wanted = .ok t) {format : Sql.Format} {start : Sql.AliasTable}
    {f : Sql.Formatted} (hf : format.serialize (.select s) start = .ok f)
    (start' : Sql.AliasTable) :
    ∃ f', format.serialize (.select t) start' = .ok f' ∧
      ∀ rows, (∀ row ∈ rows, s.NamedBy f.aliases row) →
        hydrate t f'.aliases (rows.map (t.rekey f.aliases f'.aliases)) =
          List.map (Record.project t) <$> hydrate s f.aliases rows ∧
        ∀ records, hydrate s f.aliases rows = .ok records → ∀ root ∈ records,
          ∀ r : Record, r.Within root → (r.project t).key? = r.key? := by
  have hs := h.wellFormed
  have hstep : s.step (.ofCatalogue c) (.columns wanted) = .ok t := ht
  have htwf : t.WellFormed c := hs.step .fresh hstep
  obtain ⟨f', hf'⟩ := exists_serialize_columns ht hf start'
  have haliased : ∀ place ∈ t.readColumns, (f'.aliases.get? place.1 place.2).isSome = true := by
    intro place hplace
    rw [aliases_serialize hf']
    exact Sql.AliasTable.isSome_get?_assignAll hplace start'
  obtain ⟨found, -, rfl⟩ := Select.columns_eq_ok ht
  refine ⟨f', hf', fun rows named => ⟨?_, ?_⟩⟩
  · obtain ⟨groups, groups', hgroups, hgroups', hprojected⟩ :=
      projectedGroups_ofRows hs htwf rfl haliased named
    obtain ⟨d, hd⟩ := exists_root htwf
    rw [hydrate, hydrate, hgroups, hgroups', Outcome.ok_bind, Outcome.ok_bind,
      hprojected.rows_eq hd]
    exact Outcome.mapM_map fun row _ => recordOf_project hs htwf rfl rfl keys hprojected _ row
  · intro records hrecords root hroot r hr
    exact key?_project htwf (described_of_hydrate hrecords root hroot r hr)

/-! ### A projection to the keys -/

/-- Customers with their orders and the items of these. -/
def orderedItems : Select :=
  { Select.largeItems with filter := none, projection := none }

def orderAliases : Sql.AliasTable :=
  ⟨[("c", "id"), ("x", "id"), ("x", "customer_id"), ("x1", "id"), ("x1", "order_id"),
    ("x1", "amount")]⟩

/-- A customer with an order of two items. -/
def orderRows : List Row :=
  [.ofList [("_c5", .i64 4), ("_c0", .i64 1), ("_c1", .i64 8), ("_c2", .i64 1), ("_c3", .i64 5),
      ("_c4", .i64 8)],
    .ofList [("_c5", .i64 9), ("_c0", .i64 1), ("_c1", .i64 8), ("_c2", .i64 1), ("_c3", .i64 6),
      ("_c4", .i64 8)]]

theorem reached_orderedItems : orderedItems.Reached Select.shop := by
  have hbuild : Select.build (.ofCatalogue Select.shop) "Customer" (some "c")
      [.join ⟨"orders", none, none,
        some (.and
          (.eq (.member ⟨.named "x", "Order", ["customer_id"]⟩)
            (.member (.ofModel "Customer" ["id"])))
          (.binary .gt (.member (.ofModel "Order" ["id"])) (.value (.scalar (.i64 7)))))⟩,
       .join ⟨"items", some "x", some "x", none⟩] = .ok orderedItems := by cbv
  exact Select.reached_build .fresh hbuild

theorem hydrate_columns_orderedItems :
    orderedItems.Reached Select.shop ∧ orderedItems.KeysNamed ∧ ∃ t f f',
      orderedItems.columns [] = .ok t ∧
      Sql.Format.serialize ⟨.generic, .inline, ""⟩ (.select orderedItems) .empty = .ok f ∧
      (∀ row ∈ orderRows, orderedItems.NamedBy f.aliases row) ∧
      Sql.Format.serialize ⟨.generic, .inline, ""⟩ (.select t) ⟨[("c", "name")]⟩ = .ok f' ∧
      ∃ records, hydrate orderedItems f.aliases orderRows = .ok records ∧
        records.map Record.key? = [some (.int 1)] ∧
        hydrate t f'.aliases (orderRows.map (t.rekey f.aliases f'.aliases)) =
          .ok (records.map (Record.project t)) ∧
        ∀ root ∈ records, ∀ r : Record, r.Within root → (r.project t).key? = r.key? := by
  have hlinks : ∀ {l}, l ∈ orderedItems.links →
      l = Select.recentOrders ∨ l = Select.itemsOfOrder := by
    intro l hl
    simpa [orderedItems, Select.largeItems] using hl
  have keys : orderedItems.KeysNamed := by
    refine ⟨fun l hl d hd => ?_, fun l hl d hd => ?_⟩ <;>
      rcases hlinks hl with rfl | rfl <;> cases hd <;> decide
  obtain ⟨t, ht⟩ : ∃ t, orderedItems.columns [] = .ok t := ⟨_, rfl⟩
  obtain ⟨f, hf⟩ : ∃ f, Sql.Format.serialize ⟨.generic, .inline, ""⟩ (.select orderedItems)
      .empty = .ok f := ⟨_, rfl⟩
  have haliases : f.aliases = orderAliases := by
    rw [aliases_serialize hf]
    decide +kernel
  have hnamed : ∀ row ∈ orderRows, orderedItems.NamedBy f.aliases row := by
    rw [haliases]
    show ∀ row ∈ orderRows, ∀ name ∈ row.keys, ∃ place ∈ orderedItems.readColumns,
      orderAliases.get? place.1 place.2 = some name
    decide +kernel
  have hkeys : List.map Record.key? <$> hydrate orderedItems orderAliases orderRows =
      .ok [some (.int 1)] := by cbv
  obtain ⟨f', hf', hall⟩ := hydrate_columns reached_orderedItems keys ht hf ⟨[("c", "name")]⟩
  obtain ⟨hprojected, hsame⟩ := hall orderRows hnamed
  refine ⟨reached_orderedItems, keys, t, f, f', ht, hf, hnamed, hf', ?_⟩
  rw [← haliases] at hkeys
  cases hrecords : hydrate orderedItems f.aliases orderRows with
  | error e =>
    rw [hrecords] at hkeys
    cases hkeys
  | ok records =>
    rw [hrecords] at hkeys hprojected hsame
    exact ⟨records, rfl, Except.ok.inj hkeys, hprojected, hsame records rfl⟩

end Graph
end RowGraph
