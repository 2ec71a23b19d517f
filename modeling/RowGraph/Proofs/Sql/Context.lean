import RowGraph.Proofs.Keyed
import RowGraph.Proofs.Outcome
import RowGraph.Proofs.Sql.Aliases
import RowGraph.Sql.Formatted

/-!
One alias table for many statements.

Statements that are written one after another share their aliases.  Here the table is a state that
writing changes, column by column, and it keeps beside each column the number that the column was
given.  That the number is the place of the column in the table is an invariant of writing, and so
the aliases that the table gives are those that it reads.
-/

namespace RowGraph
namespace Sql

/-! ## Tables that keep their numbers -/

@[ext]
structure NumberedTable where
  numbers : Keyed (String × String) Nat

namespace NumberedTable

def empty : NumberedTable := ⟨[]⟩

/-- The number of a column; that of the entry to come, on first use. -/
def assign (t : NumberedTable) (param column : String) : Nat × NumberedTable :=
  match t.numbers.find? (param, Text.fold column) with
  | some n => (n, t)
  | none =>
    (t.numbers.length, ⟨t.numbers ++ [((param, Text.fold column), t.numbers.length)]⟩)

def get? (t : NumberedTable) (param column : String) : Option String :=
  (t.numbers.find? (param, Text.fold column)).map aliasName

/-- The column at the place that an alias spells out, whatever number the column was given. -/
def resolve? (t : NumberedTable) (name : String) : Option (String × String) :=
  match name.toList with
  | '_' :: 'c' :: rest => (AliasTable.number? rest).bind fun n => t.numbers[n]?.map Prod.fst
  | '_' :: 'C' :: rest => (AliasTable.number? rest).bind fun n => t.numbers[n]?.map Prod.fst
  | _ => none

/-- The columns without their numbers. -/
def table (t : NumberedTable) : AliasTable := ⟨t.numbers.keys⟩

end NumberedTable

/-! ## Writing -/

def writeColumn (place : String × String) : StateM NumberedTable (List Fragment) := do
  let n ← modifyGet fun t => t.assign place.1 place.2
  return ofAliased place n

def writeSelect (s : Select) : StateM NumberedTable (List Fragment) := do
  let columns ← s.readColumns.mapM writeColumn
  return .text "SELECT " :: commas columns
    ++ [.text " FROM ", .table (s.params.table s.rootName), .text (" " ++ s.rootName)]
    ++ s.links.flatMap (ofLink s.params) ++ ofFilter true s.filter

def writeStatement (flavor : Flavor) : Statement → StateM NumberedTable (List Fragment)
  | .select s => writeSelect s
  | .insert i => return ofInsert flavor i
  | .update u => return ofUpdate u
  | .delete d => return ofDelete d

def Format.serializeIn (format : Format) (st : Statement) :
    ExceptT Error (StateM NumberedTable) Formatted := do
  let followUp ← MonadExcept.ofExcept (followUp format.flavor st)
  MonadExcept.ofExcept (checkCalls st.conditions)
  let fragments ← writeStatement format.flavor st
  let t ← get
  return ⟨layout format fragments, bound format fragments, t.table, followUp⟩

/-- The table after a statement, whether it was written or refused. -/
def NumberedTable.next (t : NumberedTable) (entry : Format × Statement) : NumberedTable :=
  ((entry.1.serializeIn entry.2).run t).2

def NumberedTable.after (t : NumberedTable) (history : List (Format × Statement)) :
    NumberedTable :=
  history.foldl next t

/-! ## Numbers are places -/

theorem find?_zipIdx {κ : Type} [DecidableEq κ] [BEq κ] [LawfulBEq κ] (key : κ) (keys : List κ)
    (start : Nat) :
    Keyed.find? key (keys.zipIdx start) = (keys.idxOf? key).map (· + start) := by
  induction keys generalizing start with
  | nil => rfl
  | cons k rest ih =>
    rw [List.zipIdx_cons, Keyed.find?, List.idxOf?_cons]
    by_cases hk : k = key
    · simp [hk]
    · rw [if_neg hk, ih, if_neg (by simpa using hk), Option.map_map]
      refine Option.map_congr fun n _ => ?_
      simp only [Function.comp_apply]
      omega

namespace NumberedTable

/-- Each column has its place for a number, and is there once. -/
structure Sound (t : NumberedTable) : Prop where
  numbers : t.numbers = t.table.columns.zipIdx
  distinct : t.table.columns.Nodup

variable {t t' : NumberedTable} {param column : String} {place : String × String}

theorem Sound.find?_eq (h : t.Sound) (place : String × String) :
    t.numbers.find? place = t.table.columns.idxOf? place := by
  rw [h.numbers, find?_zipIdx]
  simp

theorem Sound.get?_eq (h : t.Sound) : t.get? param column = t.table.get? param column := by
  rw [get?, h.find?_eq, AliasTable.get?, AliasTable.index?]

theorem resolve?_eq (t : NumberedTable) (name : String) :
    t.resolve? name = t.table.resolve? name := by
  have hplaces : (fun n : Nat => t.numbers[n]?.map Prod.fst) = fun n => t.table.columns[n]? := by
    funext n
    rw [table, Keyed.keys, List.getElem?_map]
  rw [resolve?, hplaces]
  rfl

theorem mem_columns : place ∈ t.table.columns ↔ ∃ n, (place, n) ∈ t.numbers := by
  rw [table, Keyed.keys, List.mem_map]
  constructor
  · rintro ⟨⟨_, n⟩, hentry, rfl⟩
    exact ⟨n, hentry⟩
  · rintro ⟨n, hentry⟩
    exact ⟨_, hentry, rfl⟩

theorem Sound.mem_numbers (h : t.Sound) {n : Nat} :
    (place, n) ∈ t.numbers ↔ t.table.columns[n]? = some place := by
  rw [h.numbers, List.mem_zipIdx_iff_getElem?]

theorem Sound.number_eq (h : t.Sound) {i n : Nat} (hentry : t.numbers[i]? = some (place, n)) :
    n = i := by
  rw [h.numbers, List.getElem?_zipIdx] at hentry
  obtain ⟨_, -, heq⟩ := Option.map_eq_some_iff.mp hentry
  injection heq with _ hn
  omega

theorem Sound.get?_of_mem (h : t.Sound) {n : Nat}
    (hentry : ((param, Text.fold column), n) ∈ t.numbers) :
    t.get? param column = some (aliasName n) := by
  rw [get?, Keyed.find?_of_mem h.distinct hentry, Option.map_some]

theorem Sound.eq_of_table_eq (h : t.Sound) (h' : t'.Sound) (htable : t.table = t'.table) :
    t = t' :=
  NumberedTable.ext (by rw [h.numbers, h'.numbers, htable])

theorem sound_empty : empty.Sound :=
  ⟨rfl, List.nodup_nil⟩

/-- The numbers that are kept are those that places give. -/
theorem Sound.assign_eq (h : t.Sound) (param column : String) :
    (t.assign param column).1 = (t.table.assign param column).1 ∧
      (t.assign param column).2.table = (t.table.assign param column).2 ∧
      (t.assign param column).2.Sound := by
  rw [assign, AliasTable.assign, AliasTable.index?, h.find?_eq]
  cases hindex : t.table.columns.idxOf? (param, Text.fold column) with
  | some n => exact ⟨rfl, rfl, h⟩
  | none =>
    have hlength : t.numbers.length = t.table.columns.length := by
      rw [table, Keyed.keys, List.length_map]
    have htable : (⟨t.numbers ++ [((param, Text.fold column), t.numbers.length)]⟩ :
        NumberedTable).table = ⟨t.table.columns ++ [(param, Text.fold column)]⟩ := by
      rw [table, Keyed.keys, List.map_append]
      rfl
    refine ⟨hlength, htable, ?_, ?_⟩
    · rw [htable, List.zipIdx_append, ← h.numbers, ← hlength]
      simp
    · rw [htable, List.nodup_append]
      refine ⟨h.distinct, List.nodup_singleton _, ?_⟩
      intro a ha b hb hab
      rw [List.mem_singleton] at hb
      rw [List.idxOf?_eq_none_iff] at hindex
      exact hindex (hb ▸ hab ▸ ha)

end NumberedTable

/-! ## What writing does to the table -/

/-- The columns that a statement needs aliases for. -/
def places : Statement → List (String × String)
  | .select s => s.readColumns
  | .insert _ => []
  | .update _ => []
  | .delete _ => []

theorem aliases_ofStatement (flavor : Flavor) (t : AliasTable) (st : Statement) :
    (ofStatement flavor t st).2 = (t.assignAll (places st)).2 := by
  cases st with
  | select s => rfl
  | insert i => rfl
  | update u => rfl
  | delete d => rfl

/-- With a table that goes on from the one that a statement left, the statement has the same text
and leaves the table as it is. -/
theorem ofStatement_again {flavor : Flavor} {t t' : AliasTable} {st : Statement}
    (h : (ofStatement flavor t st).2.columns <+: t'.columns) :
    ofStatement flavor t' st = ((ofStatement flavor t st).1, t') := by
  cases st with
  | select s =>
    have hcolumns : t'.assignAll s.readColumns = ((t.assignAll s.readColumns).1, t') :=
      AliasTable.assignAll_again h
    rw [ofStatement, ofSelect, hcolumns]
    rfl
  | insert i => rfl
  | update u => rfl
  | delete d => rfl

theorem serialize_again {format : Format} {st : Statement} {aliases aliases' : AliasTable}
    {f : Formatted} (hf : format.serialize st aliases = .ok f)
    (h : f.aliases.columns <+: aliases'.columns) :
    format.serialize st aliases' = .ok ⟨f.sql, f.params, aliases', f.followUp⟩ := by
  rw [Format.serialize] at hf ⊢
  obtain ⟨hook, hhook, hf⟩ := Outcome.bind_eq_ok.mp hf
  obtain ⟨_, hcalls, hf⟩ := Outcome.bind_eq_ok.mp hf
  cases hf
  rw [hhook, hcalls]
  simp only [Outcome.ok_bind, ofStatement_again h]
  rfl

section

variable {t : NumberedTable}

theorem run_writeColumn (place : String × String) (t : NumberedTable) :
    (writeColumn place).run t =
      (ofAliased place (t.assign place.1 place.2).1, (t.assign place.1 place.2).2) := rfl

theorem run_writeColumns (h : t.Sound) (columns : List (String × String)) :
    ∃ t', (columns.mapM writeColumn).run t =
        (List.zipWith ofAliased columns (t.table.assignAll columns).1, t') ∧
      t'.table = (t.table.assignAll columns).2 ∧ t'.Sound := by
  induction columns generalizing t with
  | nil => exact ⟨t, rfl, rfl, h⟩
  | cons place rest ih =>
    obtain ⟨hnumber, htable, hsound⟩ := h.assign_eq place.1 place.2
    obtain ⟨t', hrun, ht', hsound'⟩ := ih hsound
    refine ⟨t', ?_, ?_, hsound'⟩
    · rw [htable] at hrun
      rw [List.mapM_cons, StateT.run_bind, run_writeColumn, hnumber]
      change (rest.mapM writeColumn >>= _).run (t.assign place.1 place.2).2 = _
      rw [StateT.run_bind, hrun]
      rfl
    · rw [ht', htable]
      rfl

theorem run_writeStatement (h : t.Sound) (flavor : Flavor) (st : Statement) :
    ∃ t', (writeStatement flavor st).run t = ((ofStatement flavor t.table st).1, t') ∧
      t'.table = (ofStatement flavor t.table st).2 ∧ t'.Sound := by
  cases st with
  | select s =>
    obtain ⟨t', hrun, ht', hsound⟩ := run_writeColumns h s.readColumns
    refine ⟨t', ?_, ht', hsound⟩
    rw [writeStatement, writeSelect, StateT.run_bind, hrun]
    rfl
  | insert i => exact ⟨t, rfl, rfl, h⟩
  | update u => exact ⟨t, rfl, rfl, h⟩
  | delete d => exact ⟨t, rfl, rfl, h⟩

variable {format : Format} {st : Statement} {hook : Option String}

theorem run_serializeIn_ok {fragments : List Fragment} {t' : NumberedTable}
    (hhook : followUp format.flavor st = .ok hook) (hcalls : checkCalls st.conditions = .ok ())
    (hrun : (writeStatement format.flavor st).run t = (fragments, t')) :
    (format.serializeIn st).run t =
      (.ok ⟨layout format fragments, bound format fragments, t'.table, hook⟩, t') := by
  rw [Format.serializeIn, hhook, hcalls]
  change (do
    let (fragments, t) ← (writeStatement format.flavor st).run t
    return (.ok ⟨layout format fragments, bound format fragments, t.table, hook⟩, t) :
      Id (Outcome Formatted × NumberedTable)) = _
  rw [hrun]
  rfl

/-- A statement is written as it is with a table of its own, and is refused before the table
changes. -/
theorem run_serializeIn (h : t.Sound) (format : Format) (st : Statement) :
    (∃ e, format.serialize st t.table = .error e ∧
      (format.serializeIn st).run t = (.error e, t)) ∨
    ∃ f t', format.serialize st t.table = .ok f ∧ (format.serializeIn st).run t = (.ok f, t') ∧
      f.aliases = t'.table ∧ t'.table = (t.table.assignAll (places st)).2 ∧ t'.Sound := by
  rw [Format.serialize]
  cases hhook : followUp format.flavor st with
  | error e =>
    refine Or.inl ⟨e, rfl, ?_⟩
    rw [Format.serializeIn, hhook]
    rfl
  | ok hook =>
    cases hcalls : checkCalls st.conditions with
    | error e =>
      refine Or.inl ⟨e, rfl, ?_⟩
      rw [Format.serializeIn, hhook, hcalls]
      rfl
    | ok _ =>
      obtain ⟨t', hrun, ht', hsound⟩ := run_writeStatement h format.flavor st
      have hok := run_serializeIn_ok hhook hcalls hrun
      rw [ht'] at hok
      exact Or.inr ⟨_, t', rfl, hok, ht'.symm, by rw [ht', aliases_ofStatement], hsound⟩

end

/-! ## Histories -/

/-- The statement is written and not refused, whatever aliases there are. -/
def Format.Accepts (format : Format) (st : Statement) : Prop :=
  ∃ aliases f, format.serialize st aliases = .ok f

/-- What is refused does not depend on the aliases. -/
theorem Format.Accepts.serialize {format : Format} {st : Statement} (h : format.Accepts st)
    (aliases : AliasTable) : ∃ f, format.serialize st aliases = .ok f := by
  obtain ⟨_, f, hf⟩ := h
  rw [Format.serialize] at hf
  obtain ⟨hook, hhook, hf⟩ := Outcome.bind_eq_ok.mp hf
  obtain ⟨_, hcalls, -⟩ := Outcome.bind_eq_ok.mp hf
  rw [Format.serialize, hhook, hcalls]
  exact ⟨_, rfl⟩

namespace NumberedTable

variable {t : NumberedTable}

theorem Sound.next (h : t.Sound) (entry : Format × Statement) :
    (t.next entry).Sound ∧ t.table.columns <+: (t.next entry).table.columns ∧
      ∀ place, place ∈ (t.next entry).table.columns ↔ place ∈ t.table.columns ∨
        (entry.1.Accepts entry.2 ∧
          ∃ asked ∈ places entry.2, (asked.1, Text.fold asked.2) = place) := by
  rw [NumberedTable.next]
  rcases run_serializeIn h entry.1 entry.2 with
    ⟨e, he, hrun⟩ | ⟨f, t', hf, hrun, -, ht', hsound⟩
  · rw [hrun]
    refine ⟨h, List.prefix_refl _, fun place => ⟨Or.inl, ?_⟩⟩
    rintro (hplace | ⟨haccepts, -⟩)
    · exact hplace
    · obtain ⟨f, hf⟩ := haccepts.serialize t.table
      rw [he] at hf
      cases hf
  · have haccepts : entry.1.Accepts entry.2 := ⟨t.table, f, hf⟩
    rw [hrun, ht']
    refine ⟨hsound, AliasTable.prefix_assignAll _ _, fun place => ?_⟩
    rw [AliasTable.mem_columns_assignAll]
    simp [haccepts]

theorem Sound.after (h : t.Sound) (history : List (Format × Statement)) :
    (t.after history).Sound ∧ t.table.columns <+: (t.after history).table.columns ∧
      ∀ place, place ∈ (t.after history).table.columns ↔ place ∈ t.table.columns ∨
        ∃ entry ∈ history, entry.1.Accepts entry.2 ∧
          ∃ asked ∈ places entry.2, (asked.1, Text.fold asked.2) = place := by
  induction history generalizing t with
  | nil => exact ⟨h, List.prefix_refl _, fun place => by simp [NumberedTable.after]⟩
  | cons entry rest ih =>
    obtain ⟨hsound, hprefix, hmem⟩ := h.next entry
    obtain ⟨hsoundRest, hprefixRest, hmemRest⟩ := ih hsound
    refine ⟨hsoundRest, hprefix.trans hprefixRest, fun place => ?_⟩
    change place ∈ ((t.next entry).after rest).table.columns ↔ _
    rw [hmemRest, hmem, List.exists_mem_cons_iff, or_assoc]

theorem Sound.fst_run (h : t.Sound) {format : Format} {st : Statement} :
    ((format.serializeIn st).run t).1 = format.serialize st t.table := by
  rcases run_serializeIn h format st with ⟨_, heq, hrun⟩ | ⟨_, _, heq, hrun, -⟩
  · rw [hrun, heq]
  · rw [hrun, heq]

theorem Sound.refused (h : t.Sound) {format : Format} {st : Statement} {e : Error}
    {t' : NumberedTable} (hrun : (format.serializeIn st).run t = (.error e, t')) : t' = t := by
  rcases run_serializeIn h format st with ⟨_, -, hrun'⟩ | ⟨_, _, -, hrun', -⟩
  · exact (Prod.mk.inj (hrun.symm.trans hrun')).2
  · cases (Prod.mk.inj (hrun.symm.trans hrun')).1

/-- A statement that was written is written again in the same way, whatever was written since. -/
theorem Sound.again (h : t.Sound) {format : Format} {st : Statement} {f : Formatted}
    {t' : NumberedTable} (hrun : (format.serializeIn st).run t = (.ok f, t'))
    (more : List (Format × Statement)) :
    (format.serializeIn st).run (t'.after more) =
      (.ok ⟨f.sql, f.params, (t'.after more).table, f.followUp⟩, t'.after more) := by
  rcases run_serializeIn h format st with ⟨e, -, hrun'⟩ | ⟨f', t'', hf, hrun', haliases, -, hsound⟩
  · cases (Prod.mk.inj (hrun.symm.trans hrun')).1
  · obtain ⟨hok, rfl⟩ := Prod.mk.inj (hrun.symm.trans hrun')
    injection hok with hok
    subst hok
    obtain ⟨hlater, hprefix, -⟩ := hsound.after more
    have hagain := serialize_again hf (haliases ▸ hprefix)
    rcases run_serializeIn hlater format st with
      ⟨e, he, -⟩ | ⟨f', last, hf', hrun'', hlast, -, hsound'⟩
    · rw [hagain] at he
      cases he
    · rw [hagain] at hf'
      cases hf'
      rw [hrun'', hsound'.eq_of_table_eq hlater hlast.symm]

theorem after_append (t : NumberedTable) (history more : List (Format × Statement)) :
    t.after (history ++ more) = (t.after history).after more :=
  List.foldl_append

end NumberedTable

/-! ## Shared aliases -/

/-- The table that statements written one after another have come to share. -/
def shared (history : List (Format × Statement)) : NumberedTable :=
  NumberedTable.empty.after history

structure StableAliases (history : List (Format × Statement)) : Prop where
  /-- Every entry has its place for a number. -/
  numbered : ∀ (i : Nat) place n, (shared history).numbers[i]? = some (place, n) → n = i
  /-- An alias stays with its column. -/
  kept : ∀ more param column name, (shared history).get? param column = some name →
    (shared (history ++ more)).get? param column = some name
  /-- No other column is given it. -/
  own : ∀ more param column param' column' name,
    (shared history).get? param column = some name →
    (shared (history ++ more)).get? param' column' = some name →
    param' = param ∧ Text.fold column' = Text.fold column
  /-- An alias is read as the column that has it, which is found under it in any case. -/
  resolved : ∀ param column n, ((param, column), n) ∈ (shared history).numbers →
    (shared history).resolve? ("_c" ++ toString n) = some (param, column) ∧
    (shared history).resolve? ("_C" ++ toString n) = some (param, column) ∧
    ∀ column', Text.fold column' = column →
      (shared history).get? param column' = some ("_c" ++ toString n)
  /-- Whatever is read as a column is read as one of the table. -/
  allocated : ∀ name place, (shared history).resolve? name = some place →
    ∃ n, (place, n) ∈ (shared history).numbers
  /-- The columns of the table are those that the statements read, the refused ones left out. -/
  asked : ∀ place, (∃ n, (place, n) ∈ (shared history).numbers) ↔
    ∃ entry ∈ history, entry.1.Accepts entry.2 ∧
      ∃ asked ∈ places entry.2, (asked.1, Text.fold asked.2) = place
  /-- A statement that is refused changes nothing. -/
  refused : ∀ format st e t, (Format.serializeIn format st).run (shared history) = (.error e, t) →
    t = shared history
  /-- Writing a statement again, at once or later, gives what it gave and no new aliases. -/
  again : ∀ format st f t, (Format.serializeIn format st).run (shared history) = (.ok f, t) →
    ∀ more, ∃ f', (Format.serializeIn format st).run (t.after more) = (.ok f', t.after more) ∧
      f'.sql = f.sql ∧ f'.params = f.params ∧ f'.followUp = f.followUp
  /-- The places alone do for a table: it finds, reads and writes the same without the numbers. -/
  lookup : ∀ param column,
    (shared history).get? param column = (shared history).table.get? param column
  reading : ∀ name, (shared history).resolve? name = (shared history).table.resolve? name
  text : ∀ format st, ((Format.serializeIn format st).run (shared history)).1 =
    format.serialize st (shared history).table

section

variable {history more : List (Format × Statement)} {param column name : String}

theorem sound_shared (history : List (Format × Statement)) : (shared history).Sound :=
  (NumberedTable.sound_empty.after history).1

theorem mem_numbers_shared {place : String × String} :
    (∃ n, (place, n) ∈ (shared history).numbers) ↔
      ∃ entry ∈ history, entry.1.Accepts entry.2 ∧
        ∃ asked ∈ places entry.2, (asked.1, Text.fold asked.2) = place := by
  rw [← NumberedTable.mem_columns, shared, (NumberedTable.sound_empty.after history).2.2]
  simp [NumberedTable.empty, NumberedTable.table]

theorem get?_shared_append (h : (shared history).get? param column = some name) :
    (shared (history ++ more)).get? param column = some name := by
  rw [(sound_shared history).get?_eq, AliasTable.get?_eq_some] at h
  obtain ⟨n, hn, rfl⟩ := h
  rw [(sound_shared _).get?_eq, AliasTable.get?_eq_some, shared, NumberedTable.after_append]
  exact ⟨n, AliasTable.index?_of_prefix ((sound_shared history).after more).2.1 hn, rfl⟩

theorem eq_of_get?_shared {param' column' : String}
    (h : (shared history).get? param column = some name)
    (h' : (shared (history ++ more)).get? param' column' = some name) :
    param' = param ∧ Text.fold column' = Text.fold column := by
  have hlater : (shared (history ++ more)).get? param column = some name := get?_shared_append h
  rw [(sound_shared _).get?_eq] at hlater h'
  exact AliasTable.eq_of_get? h' hlater

theorem resolve?_shared {n : Nat} (h : ((param, column), n) ∈ (shared history).numbers) :
    (shared history).resolve? ("_c" ++ toString n) = some (param, column) ∧
    (shared history).resolve? ("_C" ++ toString n) = some (param, column) ∧
    ∀ column', Text.fold column' = column →
      (shared history).get? param column' = some ("_c" ++ toString n) := by
  obtain ⟨hlower, hupper⟩ := (shared history).table.resolve?_mark n
  rw [NumberedTable.resolve?_eq, NumberedTable.resolve?_eq, hlower, hupper,
    (sound_shared history).mem_numbers.mp h]
  refine ⟨rfl, rfl, fun column' hcolumn => (sound_shared history).get?_of_mem ?_⟩
  rw [hcolumn]
  exact h

end

theorem stableAliases (history : List (Format × Statement)) : StableAliases history where
  numbered := fun _ _ _ => (sound_shared history).number_eq
  kept := fun _ _ _ _ => get?_shared_append
  own := fun _ _ _ _ _ _ => eq_of_get?_shared
  resolved := fun _ _ _ => resolve?_shared
  allocated := by
    intro name place hplace
    rw [NumberedTable.resolve?_eq] at hplace
    exact NumberedTable.mem_columns.mp (AliasTable.mem_of_resolve? hplace)
  asked := fun _ => mem_numbers_shared
  refused := fun _ _ _ _ => (sound_shared history).refused
  again := fun _ _ _ _ hrun more => ⟨_, (sound_shared history).again hrun more, rfl, rfl, rfl⟩
  lookup := fun _ _ => (sound_shared history).get?_eq
  reading := fun _ => NumberedTable.resolve?_eq _ _
  text := fun _ _ => (sound_shared history).fst_run

end Sql
end RowGraph
