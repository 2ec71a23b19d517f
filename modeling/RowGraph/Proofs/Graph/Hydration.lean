import RowGraph.Graph.Record
import RowGraph.Proofs.Comparison
import RowGraph.Proofs.Graph.Groups
import RowGraph.Proofs.Statement.LinkKeys
import RowGraph.Sql.Formatted

/-!
The graph that a result describes.

A result is regrouped by parameter before rows are paired again by their keys, so it is not obvious
that two keys are paired exactly when some row had both.  They are, because the rows that a database
answers with agree: rows with one key of a parameter have the same columns of it, and a row with a
key on the right of a link has the key it refers to on the left.  Then every record, at any depth,
has under each link the keys that occur beside its own, each once.
-/

namespace RowGraph

/-! ## Selections and their results -/

namespace Select

/-- No two links follow one collection of one parameter, and each goes from the key column of its
owner to a column that is read. -/
structure Navigable (s : Select) : Prop where
  members : (s.links.map fun l => (l.left, l.member)).Nodup
  primary : ∀ l ∈ s.links, ∀ d, s.params.find? l.left = some d →
    Text.fold l.primaryKey = Text.fold d.primaryKey
  foreign : ∀ l ∈ s.links, s.ReadsAs l.right l.foreignKey

/-- The rows are such as a database answers the selection with.  They have a value for each alias
and nothing else, keys identify rows and determine the other columns, and what is joined to a row
refers to it. -/
structure Answers (s : Select) (t : Sql.AliasTable) (rows : List Row) : Prop where
  named : ∀ row ∈ rows, ∀ name, name ∈ row.keys ↔
    ∃ place ∈ s.readColumns, t.get? place.1 place.2 = some name
  primary : ∀ row ∈ rows, ∀ param d v, s.params.find? param = some d →
    t.valueIn? row param d.primaryKey = some v → v.KeyOrNull
  foreign : ∀ row ∈ rows, ∀ l ∈ s.links, ∀ v, t.valueIn? row l.right l.foreignKey = some v →
    v.KeyOrNull
  agree : ∀ row ∈ rows, ∀ row' ∈ rows, ∀ param key, s.params.keyIn? t row param = some key →
    s.params.keyIn? t row' param = some key → ∀ column v v',
    t.valueIn? row param column = some v → t.valueIn? row' param column = some v' →
      v = v' ∨ v.equals v' = true
  joined : ∀ row ∈ rows, ∀ l ∈ s.links, s.params.keyIn? t row l.right = none ∨
    ∃ a b, t.valueIn? row l.left l.primaryKey = some a ∧
      t.valueIn? row l.right l.foreignKey = some b ∧ a.equals b = true

end Select

namespace Graph

/-- Some row has the two keys for the parameters of a link. -/
def together (s : Select) (t : Sql.AliasTable) (rows : List Row) (l : Link) (key key' : Key) :
    Bool :=
  rows.any fun row =>
    s.params.keyIn? t row l.left == some key && s.params.keyIn? t row l.right == some key'

/-- The keys on the right of a link that occur beside a key on its left, each once, in the order in
which they first appear in the result. -/
def keysBeside (s : Select) (t : Sql.AliasTable) (rows : List Row) (l : Link) (key : Key) :
    List Key :=
  (Groups.keysOf s.params t rows l.right).filter (together s t rows l key)

/-- The record has the values of a row that has its key.  Under each link from its parameter, and
under nothing else, it has the records of the keys that occur beside its own, of which the same is
true. -/
inductive Attached (s : Select) (t : Sql.AliasTable) (rows : List Row) : Record → Prop
  | intro {r : Record} {key : Key} (below : Link → List Record) (hkey : r.key? = some key)
      (values : ∃ row ∈ rows, s.params.keyIn? t row r.param = some key ∧
        ∀ column, r.row.get? column = t.valueIn? row r.param column)
      (joined : ∀ l ∈ s.linksFrom r.param, r.related? l.member = some (below l))
      (absent : ∀ member, (∀ l ∈ s.linksFrom r.param, l.member ≠ member) →
        r.related? member = none)
      (keys : ∀ l ∈ s.linksFrom r.param,
        (below l).map Record.key? = (keysBeside s t rows l key).map some)
      (params : ∀ l ∈ s.linksFrom r.param, ∀ b ∈ below l, b.param = l.right)
      (attached : ∀ l ∈ s.linksFrom r.param, ∀ b ∈ below l, Attached s t rows b) :
      Attached s t rows r

theorem together_iff {s : Select} {t : Sql.AliasTable} {rows : List Row} {l : Link}
    {key key' : Key} : together s t rows l key key' = true ↔
      ∃ row ∈ rows, s.params.keyIn? t row l.left = some key ∧
        s.params.keyIn? t row l.right = some key' := by
  rw [together, List.any_eq_true]
  simp only [Bool.and_eq_true, beq_iff_eq]

/-! ## Pairing by key -/

section Hydrated

variable {c : Catalogue} {s : Select} {t : Sql.AliasTable} {rows : List Row} {groups : Groups}

/-- Every row has a value for a column that the selection reads. -/
theorem exists_valueIn? (aliased : ∀ place ∈ s.readColumns,
      (t.get? place.1 place.2).isSome = true) (answers : s.Answers t rows) {row : Row}
    (hrow : row ∈ rows) {param column : String} (h : s.ReadsAs param column) :
    ∃ v, t.valueIn? row param column = some v := by
  obtain ⟨name, hplace, hfold⟩ := h
  obtain ⟨given, hgiven⟩ := Option.isSome_iff_exists.mp (aliased _ hplace)
  have hmem : given ∈ row.keys := (answers.named row hrow given).mpr ⟨_, hplace, hgiven⟩
  rw [Sql.AliasTable.valueIn?_congr hfold.symm, Sql.AliasTable.valueIn?, hgiven, Option.bind_some,
    Row.get?_eq, row.folded given hmem]
  exact Option.ne_none_iff_exists'.mp (mt Keyed.find?_eq_none.mp (not_not.mpr hmem))

theorem exists_param (hs : s.WellFormed c) {place : String × String}
    (h : place ∈ s.readColumns) : ∃ d, s.params.find? place.1 = some d := by
  obtain ⟨⟨param, d⟩, hentry, hplace⟩ := List.mem_flatMap.mp h
  obtain ⟨column, -, rfl⟩ := List.mem_map.mp hplace
  exact ⟨d, Keyed.find?_of_mem hs.distinct hentry⟩

theorem exists_root (hs : s.WellFormed c) : ∃ d, s.params.find? s.rootName = some d := by
  have hmem : s.rootName ∈ s.params.names := by
    rw [hs.names]
    exact List.mem_cons_self
  exact Option.isSome_iff_exists.mp (Keyed.has_iff.mpr hmem)

theorem keyIn?_eq {param : String} {d : Descriptor} (hd : s.params.find? param = some d)
    (row : Row) :
    s.params.keyIn? t row param = (t.valueIn? row param d.primaryKey).bind Value.toKey? := by
  rw [Parameters.keyIn?, hd, Option.bind_some]

/-- What a row that has both keys of a link has in the two columns that the link compares. -/
theorem linked_values (hs : s.WellFormed c) (nav : s.Navigable) (answers : s.Answers t rows)
    {l : Link} (hl : l ∈ s.links) {row : Row} (hrow : row ∈ rows) {key' : Key}
    (hright : s.params.keyIn? t row l.right = some key') {b : Value}
    (hb : t.valueIn? row l.right l.foreignKey = some b) (key : Key) :
    s.params.keyIn? t row l.left = some key ↔ b.toKey? = some key := by
  obtain ⟨owner, related, relation, hfollows⟩ := hs.follows l hl
  rcases answers.joined row hrow l hl with hnone | ⟨a, b', ha, hb', hequals⟩
  · rw [hnone] at hright
    cases hright
  · rw [hb] at hb'
    cases hb'
    rw [Sql.AliasTable.valueIn?_congr (nav.primary l hl owner hfollows.left)] at ha
    have hakey := answers.primary row hrow l.left owner a hfollows.left ha
    have hbkey := answers.foreign row hrow l hl b hb
    rw [keyIn?_eq hfollows.left, ha, Option.bind_some, Value.toKey?_congr hakey hbkey hequals]

/-- A link pairs the rows that are kept for two keys exactly when some row has both keys. -/
theorem pairs_eq (hs : s.WellFormed c) (nav : s.Navigable)
    (aliased : ∀ place ∈ s.readColumns, (t.get? place.1 place.2).isSome = true)
    (answers : s.Answers t rows) (collect : groups.Collect s.params t rows) {l : Link}
    (hl : l ∈ s.links) {left right : Key × Row} (hleft : left ∈ groups.group l.left)
    (hright : right ∈ groups.group l.right) :
    l.pairs left.2 right.2 = .ok (together s t rows l left.1 right.1) := by
  obtain ⟨owner, related, relation, hfollows⟩ := hs.follows l hl
  obtain ⟨leftRow, hleftRow, hleftKey, hleftValues⟩ := collect.parts l.left left hleft
  obtain ⟨rightRow, hrightRow, hrightKey, hrightValues⟩ := collect.parts l.right right hright
  rw [keyIn?_eq hfollows.left, ← Sql.AliasTable.valueIn?_congr
    (nav.primary l hl owner hfollows.left), Option.bind_eq_some_iff] at hleftKey
  obtain ⟨a, ha, hakey⟩ := hleftKey
  obtain ⟨b, hb⟩ := exists_valueIn? aliased answers hrightRow (nav.foreign l hl)
  have hbkey := answers.foreign rightRow hrightRow l hl b hb
  rw [Link.pairs_eq (hs.left_ne_right hl) ((hleftValues _).trans ha) ((hrightValues _).trans hb)]
  congr 1
  rw [Bool.eq_iff_iff, Value.satisfies_eq_iff_toKey? hakey hbkey, together_iff]
  constructor
  · intro hkey
    exact ⟨rightRow, hrightRow,
      (linked_values hs nav answers hl hrightRow hrightKey hb left.1).mpr hkey, hrightKey⟩
  · rintro ⟨row, hrow, hrowLeft, hrowRight⟩
    obtain ⟨b', hb'⟩ := exists_valueIn? aliased answers hrow (nav.foreign l hl)
    have hb'key := answers.foreign row hrow l hl b' hb'
    have hkey := (linked_values hs nav answers hl hrow hrowRight hb' left.1).mp hrowLeft
    -- Both rows have the key on the right, so they have one foreign key.
    rcases answers.agree row hrow rightRow hrightRow l.right right.1 hrowRight hrightKey
      l.foreignKey b' b hb' hb with rfl | hequals
    · exact hkey
    · rw [← Value.toKey?_congr hb'key hbkey hequals, hkey]

/-! ## Records and what is below them -/

/-- Under a link the records of a key are those of the keys beside it. -/
structure Below (s : Select) (t : Sql.AliasTable) (rows : List Row) (l : Link) (key : Key)
    (records : List Record) : Prop where
  keys : records.map Record.key? = (keysBeside s t rows l key).map some
  params : ∀ b ∈ records, b.param = l.right
  attached : ∀ b ∈ records, Attached s t rows b

theorem merged_eq {found : Keyed String (List Record)} (h : found.keys.Nodup) :
    merged found = found :=
  Keyed.foldl_put [] h

theorem nodup_members (nav : s.Navigable) (param : String) :
    ((s.linksFrom param).map (·.member)).Nodup := by
  have hmembers := nav.members
  rw [List.Nodup, List.pairwise_map] at hmembers ⊢
  refine (hmembers.filter (·.left == param)).imp_of_mem ?_
  intro a b ha hb hne hmember
  have hleft : a.left = param := by simpa using (List.mem_filter.mp ha).2
  have hleft' : b.left = param := by simpa using (List.mem_filter.mp hb).2
  exact hne (by rw [hleft, hleft', hmember])

/-- All links from the parameter that a link leads to come after it. -/
theorem linksFrom_right (hs : s.WellFormed c) {before after : List Link} {l : Link}
    (hlinks : s.links = before ++ l :: after) :
    s.linksFrom l.right = after.filter (·.left == l.right) := by
  have hnone : (before ++ [l]).filter (·.left == l.right) = [] := by
    rw [List.filter_eq_nil_iff]
    intro l' hl'
    simpa using hs.left_ne_of_mem hlinks hl'
  rw [Select.linksFrom, hlinks, List.append_cons, List.filter_append, hnone, List.nil_append]

theorem toKey?_of_mem_group (collect : groups.Collect s.params t rows) {param : String}
    {d : Descriptor} (hd : s.params.find? param = some d) {entry : Key × Row}
    (hentry : entry ∈ groups.group param) :
    (entry.2.get d.primaryKey).toKey? = some entry.1 := by
  obtain ⟨row, -, hkey, hvalues⟩ := collect.parts param entry hentry
  rw [Row.toKey?_get, hvalues, ← keyIn?_eq hd, hkey]

/-- A row that is kept for a key makes a record of that key, if what was found for it is right. -/
theorem exists_record (nav : s.Navigable) (collect : groups.Collect s.params t rows)
    {param : String} {d : Descriptor} (hd : s.params.find? param = some d) {entry : Key × Row}
    (hentry : entry ∈ groups.group param) {found : Keyed String (List Record)}
    (hkeys : found.keys = (s.linksFrom param).map (·.member))
    (hfound : ∀ l ∈ s.linksFrom param, ∃ records, (l.member, records) ∈ found ∧
      Below s t rows l entry.1 records) :
    ∃ r, record s.params param entry.2 (merged found) = .ok r ∧ r.key? = some entry.1 ∧
      r.param = param ∧ Attached s t rows r := by
  have hkey := toKey?_of_mem_group collect hd hentry
  have hdistinct : found.keys.Nodup := hkeys ▸ nodup_members nav param
  obtain ⟨row, hrow, hrowKey, hvalues⟩ := collect.parts param entry hentry
  have hbelow : ∀ l : Link, ∃ records, l ∈ s.linksFrom param →
      (l.member, records) ∈ found ∧ Below s t rows l entry.1 records := by
    intro l
    by_cases hl : l ∈ s.linksFrom param
    · obtain ⟨records, hrecords⟩ := hfound l hl
      exact ⟨records, fun _ => hrecords⟩
    · exact ⟨[], fun h => absurd h hl⟩
  choose below hbelow using hbelow
  refine ⟨⟨d, param, entry.2, merged found⟩, by rw [record, hd], hkey, rfl, ?_⟩
  refine .intro below hkey ⟨row, hrow, hrowKey, hvalues⟩ ?_ ?_ (fun l hl => (hbelow l hl).2.keys)
    (fun l hl => (hbelow l hl).2.params) fun l hl => (hbelow l hl).2.attached
  · intro l hl
    rw [Record.related?, merged_eq hdistinct]
    exact Keyed.find?_of_mem hdistinct (hbelow l hl).1
  · intro member hmember
    rw [Record.related?, merged_eq hdistinct, Keyed.find?_eq_none, hkeys, List.mem_map]
    rintro ⟨l, hl, rfl⟩
    exact hmember l hl rfl

/-- The rows that are kept for a parameter have its keys. -/
theorem map_toKey?_rows (collect : groups.Collect s.params t rows) {param : String}
    {d : Descriptor} (hd : s.params.find? param = some d) :
    (groups.rows param).map (fun row => (row.get d.primaryKey).toKey?) =
      (Groups.keysOf s.params t rows param).map some := by
  rw [← collect.keys, Keyed.keys, Groups.rows_eq, List.map_map, List.map_map]
  exact List.map_congr_left fun entry hentry => toKey?_of_mem_group collect hd hentry

/-- What is made of the rows of the linked parameter, when it goes by whether their keys occur
beside the given one. -/
theorem exists_below (collect : groups.Collect s.params t rows) {l : Link} {target : Descriptor}
    (htarget : s.params.find? l.right = some target) (key : Key) {f : Row → Outcome (Option Record)}
    (skip : ∀ child ∈ groups.group l.right, together s t rows l key child.1 = false →
      f child.2 = .ok none)
    (take : ∀ child ∈ groups.group l.right, together s t rows l key child.1 = true →
      ∃ r, f child.2 = .ok (some r) ∧ r.key? = some child.1 ∧ r.param = l.right ∧
        Attached s t rows r) :
    ∃ records, (groups.rows l.right).filterMapM f = .ok records ∧ Below s t rows l key records := by
  let key? : Row → Option Key := fun row => (row.get target.primaryKey).toKey?
  have hkey : ∀ child ∈ groups.group l.right, key? child.2 = some child.1 :=
    fun child hchild => toKey?_of_mem_group collect htarget hchild
  obtain ⟨records, hrecords, hkeys, hall⟩ := Outcome.exists_filterMapM
    (groups.rows l.right) Record.key? key? (f := f)
    (p := fun row => (key? row).any (together s t rows l key))
    (Q := fun r => r.param = l.right ∧ Attached s t rows r)
    (by
      intro row hrow hno
      obtain ⟨child, hchild, rfl⟩ := List.mem_map.mp hrow
      rw [hkey child hchild, Option.any_some] at hno
      exact skip child hchild hno)
    (by
      intro row hrow hyes
      obtain ⟨child, hchild, rfl⟩ := List.mem_map.mp hrow
      rw [hkey child hchild, Option.any_some] at hyes
      obtain ⟨r, hr, hrkey, hrest⟩ := take child hchild hyes
      exact ⟨r, hr, hrkey.trans (hkey child hchild).symm, hrest⟩)
  have hrows := map_toKey?_rows collect htarget
  refine ⟨records, hrecords, ?_, fun b hb => (hall b hb).1, fun b hb => (hall b hb).2⟩
  rw [hkeys, keysBeside]
  calc ((groups.rows l.right).filter fun row => (key? row).any (together s t rows l key)).map key?
      = ((groups.rows l.right).map key?).filter fun k => k.any (together s t rows l key) := by
        rw [List.filter_map]
        rfl
    _ = ((Groups.keysOf s.params t rows l.right).filter (together s t rows l key)).map some := by
        rw [hrows, List.filter_map]
        rfl

/-- What the links of a selection, from some link on, find for a row that is kept for a key. -/
theorem exists_related (hs : s.WellFormed c) (nav : s.Navigable)
    (aliased : ∀ place ∈ s.readColumns, (t.get? place.1 place.2).isSome = true)
    (answers : s.Answers t rows) (collect : groups.Collect s.params t rows)
    {before links : List Link} (hlinks : s.links = before ++ links) {param : String}
    {entry : Key × Row} (hentry : entry ∈ groups.group param) :
    ∃ found, related s.params groups links param entry.2 = .ok found ∧
      found.keys = (links.filter (·.left == param)).map (·.member) ∧
      ∀ l ∈ links.filter (·.left == param), ∃ records, (l.member, records) ∈ found ∧
        Below s t rows l entry.1 records := by
  induction links generalizing before param entry with
  | nil => exact ⟨[], rfl, rfl, by simp⟩
  | cons link links ih =>
    have hrest : s.links = before ++ [link] ++ links := by rw [hlinks, List.append_cons]
    obtain ⟨found, hfound, hkeys, hall⟩ := ih hrest hentry
    rw [related]
    by_cases hparam : link.left = param
    · subst hparam
      have hlink : link ∈ s.links := hlinks ▸ List.mem_append_right before List.mem_cons_self
      obtain ⟨owner, target, relation, hfollows⟩ := hs.follows link hlink
      have hpairs : ∀ child ∈ groups.group link.right,
          link.pairs entry.2 child.2 = .ok (together s t rows link entry.1 child.1) :=
        fun child hchild => pairs_eq hs nav aliased answers collect hlink hentry hchild
      obtain ⟨records, hrecords, hbelow⟩ := exists_below collect hfollows.right entry.1
        (f := fun candidate => do
          if ← link.pairs entry.2 candidate then
            let below ← related s.params groups links link.right candidate
            return some (← record s.params link.right candidate (merged below))
          else return none)
        (by
          intro child hchild hno
          rw [hpairs child hchild, hno]
          rfl)
        (by
          intro child hchild hyes
          obtain ⟨below, hbelow, hbelowKeys, hbelowAll⟩ := ih hrest hchild
          rw [← linksFrom_right hs hlinks] at hbelowKeys hbelowAll
          obtain ⟨r, hr, hrecord⟩ :=
            exists_record nav collect hfollows.right hchild hbelowKeys hbelowAll
          refine ⟨r, ?_, hrecord⟩
          rw [hpairs child hchild, hyes, Outcome.ok_bind, if_pos rfl, hbelow, Outcome.ok_bind, hr]
          rfl)
      rw [List.filter_cons_of_pos (by simp)]
      refine ⟨(link.member, records) :: found, ?_, ?_, List.forall_mem_cons.mpr ⟨?_, ?_⟩⟩
      · rw [if_pos rfl, hrecords, hfound]
        rfl
      · rw [List.map_cons, ← hkeys]
        rfl
      · exact ⟨records, List.mem_cons_self, hbelow⟩
      · intro l hl
        obtain ⟨records', hmem, hbelow'⟩ := hall l hl
        exact ⟨records', List.mem_cons_of_mem _ hmem, hbelow'⟩
    · rw [if_neg hparam, List.filter_cons_of_neg (by simpa using hparam)]
      exact ⟨found, hfound, hkeys, hall⟩

theorem aliases_serialize {format : Sql.Format} {start : Sql.AliasTable} {f : Sql.Formatted}
    (h : format.serialize (.select s) start = .ok f) :
    f.aliases = (start.assignAll s.readColumns).2 := by
  rw [Sql.Format.serialize, Outcome.bind_eq_ok] at h
  obtain ⟨followUp, -, h⟩ := h
  rw [Outcome.bind_eq_ok] at h
  obtain ⟨-, -, h⟩ := h
  cases h
  rfl

/-- Hydrating the rows that a selection is answered with succeeds.  The root records are those of
the root keys, each once, in the order in which they first appear, and under each link from a record
are the records of exactly the keys that occur beside its own. -/
theorem hydrate_attaches (h : s.Reached c) (nav : s.Navigable) {format : Sql.Format}
    {start : Sql.AliasTable} {f : Sql.Formatted}
    (hf : format.serialize (.select s) start = .ok f) (answers : s.Answers f.aliases rows) :
    ∃ records, hydrate s f.aliases rows = .ok records ∧
      records.map Record.key? =
        (Groups.keysOf s.params f.aliases rows s.rootName).map some ∧
      ∀ r ∈ records, r.param = s.rootName ∧ Attached s f.aliases rows r := by
  have hs := h.wellFormed
  have aliased : ∀ place ∈ s.readColumns, (f.aliases.get? place.1 place.2).isSome = true := by
    intro place hplace
    rw [aliases_serialize hf]
    exact Sql.AliasTable.isSome_get?_assignAll hplace start
  have hnamed : ∀ row ∈ rows, ∀ name ∈ row.keys, ∃ param column,
      f.aliases.get? param column = some name ∧ (s.params.find? param).isSome = true := by
    intro row hrow name hname
    obtain ⟨⟨param, column⟩, hplace, hget⟩ := (answers.named row hrow name).mp hname
    obtain ⟨d, hd⟩ := exists_param hs hplace
    exact ⟨param, column, hget, by rw [hd]; rfl⟩
  obtain ⟨groups, hgroups, collect⟩ := Groups.ofRows_eq hnamed
  obtain ⟨d, hroot⟩ := exists_root hs
  have hlinks : s.links = [] ++ s.links := rfl
  let key? : Row → Option Key := fun row => (row.get d.primaryKey).toKey?
  have hkey : ∀ entry ∈ groups.group s.rootName, key? entry.2 = some entry.1 :=
    fun entry hentry => toKey?_of_mem_group collect hroot hentry
  obtain ⟨records, hrecords, hkeys, hall⟩ := Outcome.exists_mapM (groups.rows s.rootName)
    Record.key? key? (f := recordOf s.params groups s.links s.rootName)
    (Q := fun r => r.param = s.rootName ∧ Attached s f.aliases rows r)
    (by
      intro row hrow
      obtain ⟨entry, hentry, rfl⟩ := List.mem_map.mp hrow
      obtain ⟨found, hfound, hfoundKeys, hfoundAll⟩ :=
        exists_related hs nav aliased answers collect hlinks hentry
      obtain ⟨r, hr, hrkey, hrest⟩ :=
        exists_record nav collect hroot hentry hfoundKeys hfoundAll
      refine ⟨r, ?_, hrkey.trans (hkey entry hentry).symm, hrest⟩
      rw [recordOf, hfound, Outcome.ok_bind, hr])
  refine ⟨records, ?_, ?_, hall⟩
  · rw [hydrate, hgroups, Outcome.ok_bind, hrecords]
  · rw [hkeys, map_toKey?_rows collect hroot]

end Hydrated

/-! ## An instance -/

/-- Authors and books that know of each other. -/
def library : Catalogue where
  models := [
    ⟨"Author", "Authors", "id", [⟨"id", .column .i64 (some "id") none, false⟩,
      ⟨"books", .hasMany "Book" (some "writer_id") none, false⟩]⟩,
    ⟨"Book", "Books", "id", [⟨"id", .column .i64 (some "id") none, false⟩,
      ⟨"writer", .column .i64 (some "writer_id") none, false⟩]⟩]

def authorsWithBooks : Select where
  params := ⟨[("x", ⟨"Author", "Authors", "id", [⟨"id", some "id", .i64, none, true⟩],
      [⟨"books", "Book", none, some "writer_id", "id"⟩], []⟩),
    ("x1", ⟨"Book", "Books", "id", [⟨"id", some "id", .i64, none, true⟩,
      ⟨"writer_id", some "writer", .i64, none, false⟩], [], []⟩)], some "x"⟩
  filter := none
  links := [Select.booksOfAuthor]
  projection := none

def libraryAliases : Sql.AliasTable := ⟨[("x", "id"), ("x1", "id"), ("x1", "writer_id")]⟩

def authorWithBook : Row := .ofList [("_c0", .i64 1), ("_c1", .i64 7), ("_c2", .i32 1)]

def authorWithoutBook : Row := .ofList [("_c0", .i64 2), ("_c1", .null), ("_c2", .null)]

def libraryRows : List Row := [authorWithBook, authorWithoutBook]

theorem answers_libraryRows : authorsWithBooks.Answers libraryAliases libraryRows := by
  have hcases : ∀ {row : Row}, row ∈ libraryRows →
      row = authorWithBook ∨ row = authorWithoutBook := by
    intro row hrow
    simpa [libraryRows] using hrow
  have hparam : ∀ {param d}, authorsWithBooks.params.find? param = some d →
      (param = "x" ∨ param = "x1") ∧ d.primaryKey = "id" := by
    intro param d hd
    have hmem := Keyed.mem_of_find? hd
    simp only [authorsWithBooks, List.mem_cons, List.not_mem_nil, or_false, Prod.mk.injEq] at hmem
    rcases hmem with ⟨rfl, rfl⟩ | ⟨rfl, rfl⟩
    · exact ⟨Or.inl rfl, rfl⟩
    · exact ⟨Or.inr rfl, rfl⟩
  refine ⟨?_, ?_, ?_, ?_, ?_⟩
  · intro row hrow name
    have hnames : row.keys = ["_c0", "_c1", "_c2"] := by
      rcases hcases hrow with rfl | rfl <;> decide +kernel
    have hplaces : (authorsWithBooks.readColumns.map fun place =>
        libraryAliases.get? place.1 place.2) = [some "_c0", some "_c1", some "_c2"] := by
      decide +kernel
    have hiff : (∃ place ∈ authorsWithBooks.readColumns,
        libraryAliases.get? place.1 place.2 = some name) ↔
        some name ∈ authorsWithBooks.readColumns.map fun place =>
          libraryAliases.get? place.1 place.2 := List.mem_map.symm
    rw [hiff, hplaces, hnames]
    simp
  · intro row hrow param d v hd hv
    obtain ⟨hparam, hkey⟩ := hparam hd
    rw [hkey] at hv
    have hall : ∀ row ∈ libraryRows, ∀ param ∈ ["x", "x1"],
        (libraryAliases.valueIn? row param "id").all
          (fun v => v.isNull || v.toKey?.isSome) = true := by
      decide +kernel
    have hv' := hall row hrow param (by simpa using hparam)
    rw [hv, Option.all_some, Bool.or_eq_true, Value.isNull_iff] at hv'
    exact hv'
  · intro row hrow l hl v hv
    cases List.mem_singleton.mp hl
    have hall : ∀ row ∈ libraryRows, (libraryAliases.valueIn? row "x1" "writer_id").all
        (fun v => v.isNull || v.toKey?.isSome) = true := by
      decide +kernel
    have hv' := hall row hrow
    rw [show libraryAliases.valueIn? row "x1" "writer_id" = some v from hv, Option.all_some,
      Bool.or_eq_true, Value.isNull_iff] at hv'
    exact hv'
  · intro row hrow row' hrow' param key hkey hkey' column v v' hv hv'
    obtain ⟨d, hd, -⟩ := Option.bind_eq_some_iff.mp hkey
    obtain ⟨hparam, -⟩ := hparam hd
    -- No key occurs in both rows.
    have hne : ∀ param ∈ ["x", "x1"],
        authorsWithBooks.params.keyIn? libraryAliases authorWithBook param ≠
          authorsWithBooks.params.keyIn? libraryAliases authorWithoutBook param := by
      decide +kernel
    have hsame := hne param (by simpa using hparam)
    rcases hcases hrow with rfl | rfl <;> rcases hcases hrow' with rfl | rfl
    · exact Or.inl (Option.some.inj (hv.symm.trans hv'))
    · exact absurd (hkey.trans hkey'.symm) hsame
    · exact absurd (hkey'.trans hkey.symm) hsame
    · exact Or.inl (Option.some.inj (hv.symm.trans hv'))
  · intro row hrow l hl
    cases List.mem_singleton.mp hl
    rcases hcases hrow with rfl | rfl
    · refine Or.inr ⟨.i64 1, .i32 1, ?_, ?_, ?_⟩ <;> decide +kernel
    · refine Or.inl ?_
      decide +kernel

theorem hydrate_attaches_libraryRows :
    authorsWithBooks.Reached library ∧ authorsWithBooks.Navigable ∧ ∃ f,
      Sql.Format.serialize ⟨.generic, .inline, ""⟩ (.select authorsWithBooks) .empty = .ok f ∧
      authorsWithBooks.Answers f.aliases libraryRows ∧ ∃ records,
        hydrate authorsWithBooks f.aliases libraryRows = .ok records ∧
        records.map Record.key? = [some (.int 1), some (.int 2)] ∧
        ∀ r ∈ records, r.param = "x" ∧ Attached authorsWithBooks f.aliases libraryRows r := by
  have hreached : authorsWithBooks.Reached library := by
    have hbuild : Select.build (.ofCatalogue library) "Author" none
        [.join ⟨"books", none, none, none⟩] = .ok authorsWithBooks := by cbv
    exact Select.reached_build .fresh hbuild
  have hnavigable : authorsWithBooks.Navigable := by
    refine ⟨by decide, ?_, ?_⟩
    · intro l hl d hd
      cases List.mem_singleton.mp hl
      cases hd
      rfl
    · intro l hl
      cases List.mem_singleton.mp hl
      exact ⟨"writer_id", by decide, rfl⟩
  obtain ⟨f, hf⟩ : ∃ f, Sql.Format.serialize ⟨.generic, .inline, ""⟩ (.select authorsWithBooks)
      .empty = .ok f := ⟨_, rfl⟩
  have haliases : f.aliases = libraryAliases := by
    rw [aliases_serialize hf]
    decide +kernel
  have hanswers : authorsWithBooks.Answers f.aliases libraryRows := by
    rw [haliases]
    exact answers_libraryRows
  obtain ⟨records, hrecords, hkeys, hall⟩ := hydrate_attaches hreached hnavigable hf hanswers
  refine ⟨hreached, hnavigable, f, hf, hanswers, records, hrecords, ?_, hall⟩
  rw [hkeys, haliases]
  decide +kernel

end Graph
end RowGraph
