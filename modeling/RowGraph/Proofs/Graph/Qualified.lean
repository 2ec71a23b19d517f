import RowGraph.Proofs.Graph.Repetition
import RowGraph.Proofs.Graph.Walk

/-!
Columns under qualified names.

A result may spell its columns out as `parameter.column` in place of the aliases of the statement.
Rows keep their names in small letters, parameters are told apart by case, and a spelled-out name is
folded as a whole before it is split.  Spelled-out columns are therefore read as columns of the
parameters in small letters: the two forms of a result hydrate alike exactly where the parameters are
written so, and a parameter with a capital is not found under its own name.
-/

namespace RowGraph

/-! ## Names with dots -/

namespace Text

theorem fold_append (a b : String) : fold (a ++ b) = fold a ++ fold b := by
  rw [← String.toList_inj, fold, fold, fold, String.toList_map, String.toList_append,
    String.toList_append, String.toList_map, String.toList_map, List.map_append]

theorem fold_dotted (param column : String) :
    fold (param ++ "." ++ column) = fold param ++ "." ++ fold column := by
  have hdot : fold "." = "." := by decide +kernel
  rw [fold_append, fold_append, hdot]

/-- Folding makes no dots. -/
theorem dot_not_mem_fold {s : String} (h : '.' ∉ s.toList) : '.' ∉ (fold s).toList := by
  rw [fold, String.toList_map, List.mem_map]
  rintro ⟨c, hc, hdot⟩
  rw [Char.toLower] at hdot
  split at hdot
  next hcapital =>
    have hnum := congrArg Char.toNat hdot
    have hlow := hcapital.1
    have hhigh := hcapital.2
    simp only [ge_iff_le, UInt32.le_iff_toNat_le, Char.toNat, UInt32.toNat_add] at *
    simp at *
    omega
  next => exact h (hdot ▸ hc)

end Text

namespace Graph

/-- A name is split at its first dot. -/
theorem splitDot?_append {param : String} (h : '.' ∉ param.toList) (column : String) :
    splitDot? (param ++ "." ++ column) = some (param, column) := by
  have hparam : ∀ c ∈ param.toList, (c != '.') = true := by
    intro c hc
    rw [bne_iff_ne]
    rintro rfl
    exact h hc
  have hlist : (param ++ "." ++ column).toList = param.toList ++ '.' :: column.toList := by
    rw [String.toList_append, String.toList_append, List.append_assoc]
    rfl
  have hdrop : (param.toList ++ '.' :: column.toList).dropWhile (· != '.') =
      '.' :: column.toList := by
    rw [List.dropWhile_append_of_pos hparam, List.dropWhile_cons_of_neg (by decide)]
  have htake : (param.toList ++ '.' :: column.toList).takeWhile (· != '.') = param.toList := by
    rw [List.takeWhile_append_of_pos hparam, List.takeWhile_cons_of_neg (by decide),
      List.append_nil]
  rw [splitDot?, hlist, hdrop, htake]
  simp

/-- A name with a dot is no alias. -/
theorem resolve?_of_dot {name : String} (h : '.' ∈ name.toList) (t : Sql.AliasTable) :
    t.resolve? name = none := by
  have hnumber : ∀ rest : List Char, '.' ∈ rest → Sql.AliasTable.number? rest = none := by
    intro rest hdot
    unfold Sql.AliasTable.number?
    refine if_pos ?_
    rw [Bool.or_eq_true, Bool.not_eq_true', List.all_eq_false]
    refine Or.inr ⟨'.', ?_, by decide⟩
    split
    next => exact (List.mem_cons.mp hdot).resolve_left (by decide)
    next => exact hdot
  rw [Sql.AliasTable.resolve?]
  split
  next rest heq =>
    rw [heq] at h
    rw [hnumber rest (by simpa using h), Option.bind_none]
  next rest heq =>
    rw [heq] at h
    rw [hnumber rest (by simpa using h), Option.bind_none]
  next => rfl

theorem locate_append {param : String} (h : '.' ∉ param.toList) (column : String)
    (t : Sql.AliasTable) : locate t (param ++ "." ++ column) = .ok (param, column) := by
  have hdot : '.' ∈ (param ++ "." ++ column).toList := by simp
  rw [locate, resolve?_of_dot hdot, splitDot?_append h]

/-! ## Columns put into parts -/

/-- The parts of a row with a value for a column of a parameter. -/
def withColumn (parts : Keyed String Row) (place : String × String) (v : Value) :
    Keyed String Row :=
  parts.change place.1 .empty fun part => part.insert place.2 v

/-- The columns are of different parameters or have names that differ in more than case. -/
def Apart (place place' : String × String) : Prop :=
  place.1 = place'.1 → Text.fold place.2 ≠ Text.fold place'.2

def HasColumn (parts : Keyed String Row) (place : String × String) : Prop :=
  ∃ part, parts.find? place.1 = some part ∧ Text.fold place.2 ∈ part.keys

variable {t : Sql.AliasTable} {parts : Keyed String Row} {place place' : String × String}

theorem addEntry_eq {name : String} (h : locate t name = .ok place) (v : Value) :
    addEntry t parts (name, v) = .ok (withColumn parts place v) := by
  rw [addEntry, h]
  rfl

theorem hasColumn_withColumn (parts : Keyed String Row) (place : String × String) (v : Value) :
    HasColumn (withColumn parts place v) place :=
  ⟨_, Keyed.find?_put_self _ _ _, Keyed.mem_keys_put.mpr (Or.inl rfl)⟩

theorem HasColumn.withColumn (h : HasColumn parts place) (place' : String × String) (v : Value) :
    HasColumn (withColumn parts place' v) place := by
  obtain ⟨part, hpart, hcolumn⟩ := h
  rw [Graph.withColumn, HasColumn, Keyed.change, Keyed.find?_put]
  by_cases hparam : place.1 = place'.1
  · rw [if_pos hparam, ← hparam, hpart]
    exact ⟨_, rfl, Keyed.mem_keys_put.mpr (Or.inr hcolumn)⟩
  · rw [if_neg hparam]
    exact ⟨part, hpart, hcolumn⟩

/-- Of two values for one column the second stays. -/
theorem withColumn_self (parts : Keyed String Row) (place : String × String) (v w : Value) :
    withColumn (withColumn parts place w) place v = withColumn parts place v := by
  rw [withColumn, withColumn, withColumn, Keyed.change, Keyed.change, Keyed.change,
    Keyed.find?_put_self, Option.getD_some, Keyed.put_put, Row.insert_insert]

/-- A column that is there keeps its place, whatever is put beside it. -/
theorem withColumn_comm (h : HasColumn parts place) (hapart : Apart place' place) (v w : Value) :
    withColumn (withColumn parts place' w) place v =
      withColumn (withColumn parts place v) place' w := by
  obtain ⟨part, hpart, hcolumn⟩ := h
  have hmem : place.1 ∈ parts.keys := by
    rw [← Keyed.has_iff, Keyed.has, hpart]
    rfl
  rw [withColumn, withColumn, withColumn, withColumn, Keyed.change, Keyed.change, Keyed.change,
    Keyed.change]
  by_cases hparam : place'.1 = place.1
  · rw [hparam, Keyed.find?_put_self, Keyed.find?_put_self, hpart, Option.getD_some,
      Option.getD_some, Option.getD_some, Keyed.put_put, Keyed.put_put,
      Row.insert_comm (hapart hparam) hcolumn]
  · rw [Keyed.find?_put_of_ne (Ne.symm hparam), Keyed.find?_put_of_ne hparam,
      Keyed.put_comm hparam hmem]

/-- A column that is there can be replaced before or after further ones are read. -/
theorem foldlM_addEntry_withColumn {rest : Keyed String Value} (h : HasColumn parts place)
    (apart : ∀ name ∈ rest.keys, ∃ place', locate t name = .ok place' ∧ Apart place' place)
    (v : Value) :
    rest.foldlM (addEntry t) (withColumn parts place v) =
      (withColumn · place v) <$> rest.foldlM (addEntry t) parts := by
  induction rest generalizing parts with
  | nil => rfl
  | cons entry rest ih =>
    obtain ⟨place', hplace', hapart⟩ := apart entry.1 List.mem_cons_self
    rw [List.foldlM_cons, List.foldlM_cons, addEntry_eq hplace' entry.2,
      addEntry_eq hplace' entry.2, Outcome.ok_bind, Outcome.ok_bind, ← withColumn_comm h hapart]
    exact ih (h.withColumn place' entry.2)
      fun name hname => apart name (List.mem_cons_of_mem _ hname)

/-- A value that is put under a name of a row is put into the parts of the row. -/
theorem foldlM_addEntry_put {entries : Keyed String Value} {name : String}
    (hname : locate t name = .ok place) (distinct : entries.keys.Nodup)
    (apart : ∀ other ∈ entries.keys, other ≠ name →
      ∃ place', locate t other = .ok place' ∧ Apart place' place) (v : Value) :
    (entries.put name v).foldlM (addEntry t) parts =
      (withColumn · place v) <$> entries.foldlM (addEntry t) parts := by
  induction entries generalizing parts with
  | nil =>
    rw [Keyed.put, List.foldlM_cons, addEntry_eq hname]
    rfl
  | cons entry rest ih =>
    rw [Keyed.keys_cons, List.nodup_cons] at distinct
    have hrest : ∀ other ∈ Keyed.keys rest, other ≠ name →
        ∃ place', locate t other = .ok place' ∧ Apart place' place :=
      fun other hother => apart other (List.mem_cons_of_mem _ hother)
    rw [Keyed.put]
    by_cases hentry : entry.1 = name
    · have hbeside : ∀ other ∈ Keyed.keys rest,
          ∃ place', locate t other = .ok place' ∧ Apart place' place := by
        refine fun other hother => hrest other hother ?_
        rintro rfl
        exact distinct.1 (hentry ▸ hother)
      rw [if_pos hentry, List.foldlM_cons, List.foldlM_cons, hentry, addEntry_eq hname,
        show addEntry t parts entry = _ from addEntry_eq (hentry.symm ▸ hname) entry.2,
        Outcome.ok_bind, Outcome.ok_bind, ← withColumn_self parts place v entry.2]
      exact foldlM_addEntry_withColumn (hasColumn_withColumn parts place entry.2) hbeside v
    · rw [if_neg hentry, List.foldlM_cons, List.foldlM_cons]
      cases addEntry t parts entry with
      | error e => rfl
      | ok next => exact ih distinct.2 hrest

end Graph

/-! ## Rows under qualified names -/

namespace Sql.AliasTable

/-- The parameter and the column that an alias stands for, as one name. -/
def qualifiedName (t : AliasTable) (name : String) : String :=
  match t.resolve? name with
  | some (param, column) => param ++ "." ++ column
  | none => name

/-- A result row with its columns spelled out in place of their aliases. -/
def qualify (t : AliasTable) (row : Row) : Row :=
  .ofList (row.entries.map fun entry => (t.qualifiedName entry.1, entry.2))

/-- The table with the names of parameters in small letters. -/
def folded (t : AliasTable) : AliasTable :=
  ⟨t.columns.map fun place => (Text.fold place.1, place.2)⟩

variable {t : AliasTable} {name : String} {place : String × String}

theorem resolve?_folded (t : AliasTable) (name : String) :
    t.folded.resolve? name = (t.resolve? name).map fun place => (Text.fold place.1, place.2) := by
  have hplace : ∀ n : Nat, t.folded.columns[n]? =
      t.columns[n]?.map fun place => (Text.fold place.1, place.2) :=
    fun n => List.getElem?_map
  rw [resolve?, resolve?]
  split
  next rest _ =>
    cases number? rest with
    | none => rfl
    | some n => exact hplace n
  next rest _ =>
    cases number? rest with
    | none => rfl
    | some n => exact hplace n
  next => rfl

end Sql.AliasTable

namespace Graph

variable {t : Sql.AliasTable} {row : Row} {rows : List Row}

theorem locate_of_resolve? {name : String} {place : String × String}
    (h : t.resolve? name = some place) : locate t name = .ok place := by
  rw [locate, h]

theorem locate_folded {name : String} {place : String × String}
    (h : t.resolve? name = some place) : locate t.folded name = .ok (Text.fold place.1, place.2) :=
  locate_of_resolve? (by rw [Sql.AliasTable.resolve?_folded, h]; rfl)

/-- The row has spelled-out columns and nothing else. -/
def SpelledOut (row : Row) : Prop :=
  ∀ name ∈ row.keys, ∃ param column, '.' ∉ String.toList param ∧
    name = Text.fold (param ++ "." ++ column)

/-- The names of the row are aliases of columns of parameters without dots. -/
def Dotless (t : Sql.AliasTable) (row : Row) : Prop :=
  ∀ name ∈ row.keys, ∃ place, t.resolve? name = some place ∧ '.' ∉ place.1.toList

theorem locate_fold {param : String} (h : '.' ∉ param.toList) (column : String)
    (t : Sql.AliasTable) :
    locate t (Text.fold (param ++ "." ++ column)) = .ok (Text.fold param, Text.fold column) := by
  rw [Text.fold_dotted]
  exact locate_append (Text.dot_not_mem_fold h) _ t

/-- A further spelled-out column is put into the parts, also if it was there before. -/
theorem split_insert (hrow : SpelledOut row) {param : String} (hparam : '.' ∉ param.toList)
    (column : String) (v : Value) (t : Sql.AliasTable) :
    split t (row.insert (param ++ "." ++ column) v) =
      (withColumn · (Text.fold param, Text.fold column) v) <$> split t row := by
  refine foldlM_addEntry_put (locate_fold hparam column t) row.distinct ?_ v
  intro other hother hne
  obtain ⟨param', column', hparam', rfl⟩ := hrow other hother
  refine ⟨_, locate_fold hparam' column' t, fun hsame hcolumn => hne ?_⟩
  have hparams : Text.fold param' = Text.fold param := hsame
  rw [Text.fold_fold, Text.fold_fold] at hcolumn
  rw [Text.fold_dotted, Text.fold_dotted, hparams, hcolumn]

theorem SpelledOut.insert (hrow : SpelledOut row) {param : String} (hparam : '.' ∉ param.toList)
    (column : String) (v : Value) : SpelledOut (row.insert (param ++ "." ++ column) v) := by
  intro name hname
  rcases Keyed.mem_keys_put.mp hname with rfl | hname
  · exact ⟨param, column, hparam, rfl⟩
  · exact hrow name hname

/-- Spelled-out columns are taken apart as aliases of columns of parameters in small letters. -/
theorem split_qualify (hrow : Dotless t row) (t' : Sql.AliasTable) :
    split t' (t.qualify row) = split t.folded row := by
  suffices hgen : ∀ (entries : Keyed String Value) (done : Row) (parts : Keyed String Row),
      (∀ name ∈ entries.keys, ∃ place, t.resolve? name = some place ∧ '.' ∉ place.1.toList) →
      SpelledOut done → split t' done = .ok parts →
      split t' ((entries.map fun entry => (t.qualifiedName entry.1, entry.2)).foldl
        (fun row pair => row.insert pair.1 pair.2) done) =
        entries.foldlM (addEntry t.folded) parts from
    hgen row.entries .empty [] hrow (List.forall_mem_nil _) rfl
  intro entries
  induction entries with
  | nil => exact fun done parts _ _ hdone => hdone
  | cons entry rest ih =>
    intro done parts hentries hspelled hdone
    obtain ⟨⟨param, column⟩, hplace, hparam⟩ := hentries entry.1 List.mem_cons_self
    have hname : t.qualifiedName entry.1 = param ++ "." ++ column := by
      rw [Sql.AliasTable.qualifiedName, hplace]
    -- A row folds the names of its columns, so it takes a folded name as it takes the name.
    have hcolumn : withColumn parts (Text.fold param, Text.fold column) entry.2 =
        withColumn parts (Text.fold param, column) entry.2 := by
      simp only [withColumn, Row.insert, Text.fold_fold]
    rw [List.map_cons, List.foldl_cons, hname, List.foldlM_cons,
      show addEntry t.folded parts entry = _ from addEntry_eq (locate_folded hplace) entry.2,
      Outcome.ok_bind]
    refine ih _ _ (fun name hname => hentries name (List.mem_cons_of_mem _ hname))
      (hspelled.insert hparam column entry.2) ?_
    rw [split_insert hspelled hparam, hdone, ← hcolumn]
    rfl

theorem split_folded (h : ∀ name ∈ row.keys, ∃ place, t.resolve? name = some place ∧
    Text.fold place.1 = place.1) : split t.folded row = split t row := by
  refine Outcome.foldlM_congr (fun entry hentry parts => ?_) []
  obtain ⟨place, hplace, hfold⟩ := h entry.1 (Keyed.mem_keys_of_mem hentry)
  rw [addEntry, addEntry, locate_folded hplace, locate_of_resolve? hplace, hfold]

/-! ## Hydrating spelled-out columns -/

/-- The row has, under an alias, a column of the parameter. -/
def HasColumnOf (t : Sql.AliasTable) (row : Row) (param : String) : Prop :=
  ∃ name ∈ row.keys, ∃ column, t.resolve? name = some (param, column)

variable {c : Catalogue} {s : Select}

theorem ofRows_map_qualify (ps : Parameters) (hrows : ∀ row ∈ rows, Dotless t row)
    (t' : Sql.AliasTable) :
    Groups.ofRows ps t' (rows.map t.qualify) = Groups.ofRows ps t.folded rows := by
  rw [Groups.ofRows, Groups.ofRows, List.foldlM_map]
  refine Outcome.foldlM_congr (fun row hrow groups => ?_) _
  rw [Groups.addRow, Groups.addRow, split_qualify (hrows row hrow)]

theorem ofRows_folded (ps : Parameters) (hrows : ∀ row ∈ rows, ∀ name ∈ row.keys,
      ∃ place, t.resolve? name = some place ∧ Text.fold place.1 = place.1) :
    Groups.ofRows ps t.folded rows = Groups.ofRows ps t rows := by
  rw [Groups.ofRows, Groups.ofRows]
  refine Outcome.foldlM_congr (fun row hrow groups => ?_) _
  rw [Groups.addRow, Groups.addRow, split_folded (hrows row hrow)]

/-- Aliases of a statement are hydrated unless a row lacks a column that a link compares. -/
theorem failsWith_hydrate (hs : s.WellFormed c) (named : ∀ row ∈ rows, s.NamedBy t row) :
    Outcome.FailsWith LacksValue (hydrate s t rows) := by
  obtain ⟨groups, hgroups, -⟩ :=
    Groups.ofRows_eq fun row hrow => named_of_namedBy hs (named row hrow)
  obtain ⟨root, hroot⟩ := exists_root hs
  rw [hydrate, hgroups]
  refine .mapM (fun row => failsWith_recordOf (fun _ he => he) ?_ ?_ groups row) _
  · intro l hl hnone
    obtain ⟨owner, target, relation, hfollows⟩ := hs.follows l hl
    rw [hfollows.right] at hnone
    cases hnone
  · intro hnone
    rw [hroot] at hnone
    cases hnone

/-- A column of a parameter that is not known in small letters is refused. -/
theorem ofRows_folded_eq_error {ps : Parameters} (hrows : ∀ row ∈ rows, ∀ name ∈ row.keys,
      ∃ place, t.resolve? name = some place ∧ place.1 ∈ ps.names) (hrow : row ∈ rows)
    {param : String} (hcolumn : HasColumnOf t row param) (hfold : Text.fold param ∉ ps.names) :
    ∃ q ∈ ps.names, Text.fold q ∉ ps.names ∧ Groups.ofRows ps t.folded rows =
      .error (.invalidResult (.unknownParameter (Text.fold q))) := by
  have hfails : Outcome.FailsWith (fun e => ∃ q ∈ ps.names, Text.fold q ∉ ps.names ∧
      e = .invalidResult (.unknownParameter (Text.fold q))) (Groups.ofRows ps t.folded rows) := by
    refine .foldlM_of_mem (fun row hrow groups => ?_) _
    obtain ⟨parts, hsplit, hparts⟩ := exists_split (t := t.folded) (ps.names.map Text.fold)
      fun name hname => by
        obtain ⟨place, hplace, hparam⟩ := hrows row hrow name hname
        exact ⟨_, locate_folded hplace, List.mem_map_of_mem hparam⟩
    rw [Groups.addRow, hsplit]
    refine .foldlM_of_mem (fun part hpart groups => ?_) groups
    rw [Groups.add]
    split
    next hnone =>
      obtain ⟨q, hq, hfold⟩ := List.mem_map.mp (hparts (Keyed.mem_keys_of_mem hpart))
      rw [← hfold] at hnone ⊢
      exact .error ⟨q, hq, Keyed.find?_eq_none.mp hnone, rfl⟩
    next =>
      split
      next => exact .ok _
      next => exact .ok _
  cases hgroups : Groups.ofRows ps t.folded rows with
  | ok groups =>
    obtain ⟨name, hname, column, hresolve⟩ := hcolumn
    obtain ⟨place, hplace, hknown⟩ := Groups.locate_of_ofRows hgroups row hrow name hname
    rw [locate_folded hresolve] at hplace
    cases hplace
    exact absurd hknown hfold
  | error e =>
    obtain ⟨q, hq, hqfold, rfl⟩ := hfails e hgroups
    exact ⟨q, hq, hqfold, rfl⟩

/-- Spelled-out columns hydrate as aliases of columns of the parameters in small letters.  Where the
parameters are written so, that is how the aliases hydrate; a column of a parameter that is not known
in small letters is refused, which the aliases never are. -/
theorem hydrate_qualified (h : s.Reached c)
    (dotless : ∀ param ∈ s.params.names, '.' ∉ String.toList param)
    (named : ∀ row ∈ rows, s.NamedBy t row) (t' : Sql.AliasTable) :
    hydrate s t' (rows.map t.qualify) = hydrate s t.folded rows ∧
    ((∀ row ∈ rows, ∀ param, HasColumnOf t row param → Text.fold param = param) →
      hydrate s t' (rows.map t.qualify) = hydrate s t rows) ∧
    ∀ row ∈ rows, ∀ param, HasColumnOf t row param → Text.fold param ∉ s.params.names →
      ∃ q ∈ s.params.names, Text.fold q ∉ s.params.names ∧
        hydrate s t' (rows.map t.qualify) =
          .error (.invalidResult (.unknownParameter (Text.fold q))) ∧
        hydrate s t rows ≠ .error (.invalidResult (.unknownParameter (Text.fold q))) := by
  have hs := h.wellFormed
  have hresolved : ∀ row ∈ rows, ∀ name ∈ row.keys,
      ∃ place, t.resolve? name = some place ∧ place.1 ∈ s.params.names := by
    intro row hrow name hname
    obtain ⟨place, hplace, hget⟩ := named row hrow name hname
    obtain ⟨d, hd⟩ := exists_param hs hplace
    exact ⟨_, Sql.AliasTable.resolve?_of_get? hget,
      Keyed.has_iff.mp (Option.isSome_iff_exists.mpr ⟨d, hd⟩)⟩
  have hdotless : ∀ row ∈ rows, Dotless t row := by
    intro row hrow name hname
    obtain ⟨place, hplace, hparam⟩ := hresolved row hrow name hname
    exact ⟨place, hplace, dotless place.1 hparam⟩
  have hqualified : hydrate s t' (rows.map t.qualify) = hydrate s t.folded rows := by
    rw [hydrate, hydrate, ofRows_map_qualify s.params hdotless]
  refine ⟨hqualified, fun hfolded => ?_, fun row hrow param hcolumn hparam => ?_⟩
  · have hplaces : ∀ row ∈ rows, ∀ name ∈ row.keys,
        ∃ place, t.resolve? name = some place ∧ Text.fold place.1 = place.1 := by
      intro row hrow name hname
      obtain ⟨place, hplace, -⟩ := hresolved row hrow name hname
      exact ⟨place, hplace, hfolded row hrow place.1 ⟨name, hname, place.2, hplace⟩⟩
    rw [hqualified, hydrate, hydrate, ofRows_folded s.params hplaces]
  · obtain ⟨q, hq, hqfold, herror⟩ := ofRows_folded_eq_error hresolved hrow hcolumn hparam
    refine ⟨q, hq, hqfold, by rw [hqualified, hydrate, herror]; rfl, fun hsame => ?_⟩
    obtain ⟨_, _, hlacks⟩ := failsWith_hydrate hs named _ hsame
    cases hlacks

/-! ### A parameter with a capital -/

def players : Catalogue where
  models := [⟨"Player", "Players", "id", [⟨"id", .column .i64 (some "id") none, false⟩]⟩]

def player : Descriptor :=
  ⟨"Player", "Players", "id", [⟨"id", some "id", .i64, none, true⟩], [], []⟩

def heroes : Select :=
  ⟨⟨[("Hero", player)], some "Hero"⟩, none, [], none⟩

def heroAliases : Sql.AliasTable := ⟨[("Hero", "id")]⟩

def heroRow : Row := .ofList [("_c0", .i64 4)]

theorem reached_heroes : heroes.Reached players := by
  have hbuild : Select.build (.ofCatalogue players) "Player" (some "Hero") [] = .ok heroes := by
    cbv
  exact Select.reached_build .fresh hbuild

theorem dotless_heroes : ∀ param ∈ heroes.params.names, '.' ∉ String.toList param := by
  decide +kernel

theorem namedBy_heroRow : ∀ row ∈ [heroRow], heroes.NamedBy heroAliases row := by
  show ∀ row ∈ [heroRow], ∀ name ∈ row.keys, ∃ place ∈ heroes.readColumns,
    heroAliases.get? place.1 place.2 = some name
  decide +kernel

theorem hydrate_heroRow : hydrate heroes heroAliases [heroRow] =
    .ok [⟨player, "Hero", .ofList [("id", .i64 4)], []⟩] := by
  cbv

theorem not_all_columns_qualified :
    ¬∀ c s, Select.Reached c s → (∀ param ∈ s.params.names, '.' ∉ String.toList param) →
      (∀ entry ∈ s.params.entries, entry.2.NamesDistinct) →
      ∀ t rows, (∀ row ∈ rows, s.NamedBy t row) →
        hydrate s t (rows.map t.qualify) = hydrate s t rows := by
  intro h
  have hqualified : hydrate heroes heroAliases ([heroRow].map heroAliases.qualify) =
      .error (.invalidResult (.unknownParameter "hero")) := by cbv
  have hdistinct : ∀ entry ∈ heroes.params.entries, entry.2.NamesDistinct := by
    simp [heroes, player, Descriptor.NamesDistinct]
  have hsame := h players heroes reached_heroes dotless_heroes hdistinct heroAliases [heroRow]
    namedBy_heroRow
  rw [hqualified, hydrate_heroRow] at hsame
  cases hsame

/-- The column of a parameter with a capital is refused when it is spelled out, while the columns of
parameters in small letters hydrate in either form. -/
theorem hydrate_qualified_heroes :
    (heroes.Reached players ∧ (∀ row ∈ [heroRow], heroes.NamedBy heroAliases row) ∧
      HasColumnOf heroAliases heroRow "Hero" ∧
      hydrate heroes heroAliases ([heroRow].map heroAliases.qualify) =
        .error (.invalidResult (.unknownParameter "hero"))) ∧
    (orderedItems.Reached Select.shop ∧
      (∀ row ∈ orderRows, orderedItems.NamedBy orderAliases row) ∧
      hydrate orderedItems orderAliases (orderRows.map orderAliases.qualify) =
        hydrate orderedItems orderAliases orderRows) := by
  have hcolumn : HasColumnOf heroAliases heroRow "Hero" := ⟨"_c0", by decide +kernel, "id", rfl⟩
  have hfold : Text.fold "Hero" ∉ heroes.params.names := by decide +kernel
  have hhero := (hydrate_qualified reached_heroes dotless_heroes namedBy_heroRow heroAliases).2.2
    heroRow List.mem_cons_self "Hero" hcolumn hfold
  obtain ⟨q, hq, -, herror, -⟩ := hhero
  have hq' : q = "Hero" := List.mem_singleton.mp hq
  subst hq'
  have horders : ∀ row ∈ orderRows, orderedItems.NamedBy orderAliases row := by
    show ∀ row ∈ orderRows, ∀ name ∈ row.keys, ∃ place ∈ orderedItems.readColumns,
      orderAliases.get? place.1 place.2 = some name
    decide +kernel
  have hsmall : ∀ row ∈ orderRows, ∀ param, HasColumnOf orderAliases row param →
      Text.fold param = param := by
    rintro row - param ⟨name, -, column, hresolve⟩
    have hplaces : ∀ place ∈ orderAliases.columns, Text.fold place.1 = place.1 := by
      decide +kernel
    exact hplaces _ (Sql.AliasTable.mem_of_resolve? hresolve)
  have hsame := (hydrate_qualified reached_orderedItems (by decide +kernel) horders
    orderAliases).2.1 hsmall
  have hname : Text.fold "Hero" = "hero" := by decide +kernel
  rw [hname] at herror
  exact ⟨⟨reached_heroes, namedBy_heroRow, hcolumn, herror⟩, reached_orderedItems, horders, hsame⟩

end Graph
end RowGraph
