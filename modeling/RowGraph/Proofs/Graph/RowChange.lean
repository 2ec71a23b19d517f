import RowGraph.Graph.Record
import RowGraph.Proofs.Graph.Groups
import RowGraph.Proofs.Row

/-!
Records of changed rows.

The graph is made of rows by two questions only: which key a row has, and which rows a link pairs.  A
change of the rows that leaves the answers as they are changes the records row by row and nothing
else: not how many there are, in which order they come or what is below them, nor how hydration
fails.
-/

namespace RowGraph

/-! ## Changed records -/

mutual

/-- A record and all that is below it with other rows, each changed as a row of its parameter. -/
def Record.mapRows (f : String → Row → Row) : Record → Record
  | ⟨d, param, row, relations⟩ => ⟨d, param, f param row, Record.mapRelations f relations⟩

def Record.mapRelations (f : String → Row → Row) :
    List (String × List Record) → List (String × List Record)
  | [] => []
  | (member, records) :: rest => (member, Record.mapAll f records) :: Record.mapRelations f rest

def Record.mapAll (f : String → Row → Row) : List Record → List Record
  | [] => []
  | r :: rest => r.mapRows f :: Record.mapAll f rest

end

namespace Record

theorem mapAll_eq (f : String → Row → Row) (records : List Record) :
    mapAll f records = records.map (mapRows f) := by
  induction records with
  | nil => rfl
  | cons r rest ih => rw [mapAll, ih, List.map_cons]

theorem mapRelations_eq (f : String → Row → Row) (relations : Keyed String (List Record)) :
    mapRelations f relations = relations.mapValues (List.map (mapRows f)) := by
  induction relations with
  | nil => rfl
  | cons entry rest ih =>
    rw [mapRelations, ih, mapAll_eq]
    rfl

end Record

namespace Graph

variable {t : Sql.AliasTable} {ps : Parameters}

section Rows

variable {f : String → Row → Row} {groups groups' : Groups} {links : List Link}

/-- What was found, with other rows. -/
def mapFound (f : String → Row → Row) (found : Keyed String (List Record)) :
    Keyed String (List Record) :=
  found.mapValues (List.map (Record.mapRows f))

theorem record_mapRows (ps : Parameters) (f : String → Row → Row) (param : String) (row : Row)
    (found : Keyed String (List Record)) :
    record ps param (f param row) (merged (mapFound f found)) =
      Record.mapRows f <$> record ps param row (merged found) := by
  have hmerged : merged (mapFound f found) = Record.mapRelations f (merged found) := by
    rw [Record.mapRelations_eq]
    exact Keyed.foldl_put_mapValues _ [] found
  rw [record, record, hmerged]
  cases ps.find? param with
  | none => rfl
  | some d => rfl

theorem mapFound_cons (f : String → Row → Row) (member : String) (records : Outcome (List Record))
    (found : Outcome (Keyed String (List Record))) :
    (do
      let records ← List.map (Record.mapRows f) <$> records
      return (member, records) :: (← mapFound f <$> found)) =
      mapFound f <$> (do
        let records ← records
        return (member, records) :: (← found)) := by
  cases records with
  | error e => rfl
  | ok records => cases found <;> rfl

/-- What the links find for a changed row among changed rows is what they find for the row, changed,
if they pair the changed rows as they pair the rows. -/
theorem related_mapRows
    (rows : ∀ l ∈ links, groups'.rows l.right = (groups.rows l.right).map (f l.right))
    (pairs : ∀ l ∈ links, ∀ a b, l.pairs (f l.left a) (f l.right b) = l.pairs a b)
    (param : String) (row : Row) :
    related ps groups' links param (f param row) =
      mapFound f <$> related ps groups links param row := by
  induction links generalizing param row with
  | nil => rfl
  | cons link links ih =>
    have hrest := ih (fun l hl => rows l (List.mem_cons_of_mem link hl))
      fun l hl => pairs l (List.mem_cons_of_mem link hl)
    rw [related, related]
    by_cases hparam : link.left = param
    · subst hparam
      rw [if_pos rfl, if_pos rfl, rows link List.mem_cons_self, hrest,
        Outcome.filterMapM_map (h := Record.mapRows f) (f := fun candidate => do
          if ← link.pairs row candidate then
            let below ← related ps groups links link.right candidate
            return some (← record ps link.right candidate (merged below))
          else return none)]
      · exact mapFound_cons f link.member _ _
      · intro candidate _
        rw [pairs link List.mem_cons_self, hrest]
        cases link.pairs row candidate with
        | error e => rfl
        | ok paired =>
          cases paired with
          | false => rfl
          | true =>
            cases related ps groups links link.right candidate with
            | error e => rfl
            | ok below =>
              show (record ps link.right _ (merged (mapFound f below)) >>= _) =
                Option.map _ <$> (record ps link.right candidate (merged below) >>= _)
              rw [record_mapRows]
              cases record ps link.right candidate (merged below) <;> rfl
    · rw [if_neg hparam, if_neg hparam]
      exact hrest param row

theorem recordOf_mapRows
    (rows : ∀ l ∈ links, groups'.rows l.right = (groups.rows l.right).map (f l.right))
    (pairs : ∀ l ∈ links, ∀ a b, l.pairs (f l.left a) (f l.right b) = l.pairs a b)
    (param : String) (row : Row) :
    recordOf ps groups' links param (f param row) =
      Record.mapRows f <$> recordOf ps groups links param row := by
  rw [recordOf, recordOf, related_mapRows rows pairs param row]
  cases related ps groups links param row with
  | error e => rfl
  | ok found => exact record_mapRows ps f param row found

end Rows

/-! ## Changed values -/

section Values

variable {f : Value → Value}

/-- The parts of a row with other values are those of the row, with other values. -/
theorem split_mapValues (t : Sql.AliasTable) (f : Value → Value) (row : Row) :
    split t (row.mapValues f) = Keyed.mapValues (Row.mapValues f) <$> split t row := by
  refine Outcome.foldlM_hom (g := fun entry => (entry.1, f entry.2))
    (h := Keyed.mapValues (Row.mapValues f)) ?_ row.entries []
  rintro parts ⟨name, v⟩
  rw [addEntry, addEntry]
  cases locate t name with
  | error e => rfl
  | ok place =>
    refine congrArg Except.ok (Keyed.change_mapValues (Row.mapValues f)
      (g := fun part => part.insert place.2 v) (fun part => ?_) place.1 .empty parts)
    exact Row.mapValues_insert f part place.2 v

namespace Groups

/-- The groups with other rows under their keys. -/
def mapRows (f : Row → Row) (groups : Groups) : Groups :=
  groups.mapValues (Keyed.mapValues f)

theorem rows_mapRows (f : Row → Row) (groups : Groups) (param : String) :
    (groups.mapRows f).rows param = (groups.rows param).map f := by
  rw [rows, rows, mapRows, Keyed.find?_mapValues]
  cases groups.find? param with
  | none => rfl
  | some group =>
    rw [Option.map_some, Option.getD_some, Option.getD_some, Keyed.mapValues, List.map_map,
      List.map_map]
    rfl

theorem empty_mapRows (ps : Parameters) (f : Row → Row) :
    (empty ps).mapRows f = empty ps := by
  rw [mapRows, Keyed.mapValues, empty, List.map_map]
  rfl

/-- A change of values that keeps their keys leaves it to the same parts to be added. -/
theorem add_mapValues (keys : ∀ v, (f v).toKey? = v.toKey?) (groups : Groups)
    (part : String × Row) :
    add ps (groups.mapRows (Row.mapValues f)) (part.1, part.2.mapValues f) =
      mapRows (Row.mapValues f) <$> add ps groups part := by
  obtain ⟨param, part⟩ := part
  rw [add, add]
  cases ps.find? param with
  | none => rfl
  | some d =>
    have hkey : ((part.mapValues f).get d.primaryKey).toKey? = (part.get d.primaryKey).toKey? := by
      rw [Row.toKey?_get, Row.toKey?_get, Row.get?_mapValues]
      cases part.get? d.primaryKey with
      | none => rfl
      | some v => exact keys v
    dsimp only
    rw [hkey]
    cases (part.get d.primaryKey).toKey? with
    | none => rfl
    | some key =>
      refine congrArg Except.ok (Keyed.change_mapValues (Keyed.mapValues (Row.mapValues f))
        (g := fun group => group.putNew key part) (fun group => ?_) param [] groups)
      exact Keyed.putNew_mapValues _ key part group

theorem ofRows_mapValues (keys : ∀ v, (f v).toKey? = v.toKey?) (rows : List Row) :
    ofRows ps t (rows.map (Row.mapValues f)) = mapRows (Row.mapValues f) <$> ofRows ps t rows := by
  rw [ofRows, ofRows]
  nth_rewrite 1 [← empty_mapRows ps (Row.mapValues f)]
  refine Outcome.foldlM_hom (fun groups row => ?_) rows (empty ps)
  rw [addRow, addRow, split_mapValues]
  cases split t row with
  | error e => rfl
  | ok parts => exact Outcome.foldlM_hom (add_mapValues keys) parts groups

end Groups

theorem input_pair_mapValues (f : Value → Value) (left right : String)
    (leftRow rightRow : Row) (param column : String) :
    (Assignment.pair left (leftRow.mapValues f) right (rightRow.mapValues f)).input param column =
      ((Assignment.pair left leftRow right rightRow).input param column).map f := by
  have hpair : Assignment.pair left (leftRow.mapValues f) right (rightRow.mapValues f) =
      Keyed.mapValues (Row.mapValues f) (Assignment.pair left leftRow right rightRow) := rfl
  rw [Assignment.input, Assignment.input, hpair, Keyed.find?_mapValues]
  cases (Assignment.pair left leftRow right rightRow).find? param with
  | none => rfl
  | some row => exact Row.get?_mapValues f row column

/-- A change of values that keeps which of them are equal leaves it to a link which rows it pairs. -/
theorem pairs_mapValues (equal : ∀ a b, (f a).satisfies .eq (f b) = a.satisfies .eq b) (l : Link)
    (leftRow rightRow : Row) :
    l.pairs (leftRow.mapValues f) (rightRow.mapValues f) = l.pairs leftRow rightRow := by
  simp only [Link.pairs, Link.predicate, Condition.evalBool, Condition.eq, Condition.eval,
    Condition.read, input_pair_mapValues]
  cases (Assignment.pair l.left leftRow l.right rightRow).input l.left l.primaryKey with
  | none => rfl
  | some a =>
    cases (Assignment.pair l.left leftRow l.right rightRow).input l.right l.foreignKey with
    | none => rfl
    | some b =>
      show Condition.truth (.bool ((f a).satisfies .eq (f b))) = _
      rw [equal]
      rfl

/-- Hydration asks two things of values: for which keys they stand and which of them are equal. -/
theorem hydrate_mapValues (keys : ∀ v, (f v).toKey? = v.toKey?)
    (equal : ∀ a b, (f a).satisfies .eq (f b) = a.satisfies .eq b) (s : Select)
    (t : Sql.AliasTable) (rows : List Row) :
    hydrate s t (rows.map (Row.mapValues f)) =
      List.map (Record.mapRows fun _ => Row.mapValues f) <$> hydrate s t rows := by
  rw [hydrate, hydrate, Groups.ofRows_mapValues keys]
  cases Groups.ofRows s.params t rows with
  | error e => rfl
  | ok groups =>
    show List.mapM _ (Groups.rows (groups.mapRows (Row.mapValues f)) s.rootName) = _
    rw [Groups.rows_mapRows]
    refine Outcome.mapM_map fun row _ => recordOf_mapRows (f := fun _ => Row.mapValues f)
      (fun l _ => Groups.rows_mapRows _ groups l.right)
      (fun l _ => pairs_mapValues equal l) s.rootName row

end Values
end Graph
end RowGraph
