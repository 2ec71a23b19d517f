import RowGraph.Proofs.Keyed
import RowGraph.Proofs.Lists
import RowGraph.Proofs.Sql.Refusals

/-!
The table prefix.

A statement names its tables through the descriptors of its parameters and of its target.  Giving
each of these tables another name changes the names of tables in the text of the statement and
nothing else: neither the columns that are read, which are named by their parameters, nor the values
and the aliases.  A layout with a prefix is the layout without one of the statement whose tables
carry the prefix in their names.
-/

namespace RowGraph

/-! ## Statements with other tables -/

section

variable (f : String → String)

def Descriptor.renameTable (d : Descriptor) : Descriptor :=
  { d with table := f d.table }

def Parameters.renameTables (ps : Parameters) : Parameters :=
  { ps with entries := Keyed.mapValues (Descriptor.renameTable f) ps.entries }

def Select.renameTables (s : Select) : Select :=
  { s with params := s.params.renameTables f }

/-- The statement with other names for the tables of its parameters and its target.  Names of
columns and parameters, conditions and values stay. -/
def Statement.renameTables : Statement → Statement
  | .select s => .select (s.renameTables f)
  | .insert i => .insert { i with target := i.target.renameTable f }
  | .update u => .update { u with target := u.target.renameTable f }
  | .delete d => .delete { d with target := d.target.renameTable f }

theorem Parameters.find?_renameTables (ps : Parameters) (name : String) :
    (ps.renameTables f).find? name = (ps.find? name).map (Descriptor.renameTable f) :=
  Keyed.find?_mapValues _ name ps.entries

theorem Parameters.default?_renameTables (ps : Parameters) :
    (ps.renameTables f).default? =
      ps.default?.map fun entry => (entry.1, entry.2.renameTable f) := by
  cases hdefault : ps.default with
  | none =>
    rw [default?, default?, renameTables, hdefault]
    rfl
  | some name =>
    have hrenamed : (ps.renameTables f).default = some name := hdefault
    rw [default?, default?, hrenamed, hdefault, Option.bind_some, Option.bind_some,
      find?_renameTables]
    cases ps.find? name with
    | none => rfl
    | some d => rfl

namespace Select

theorem reads_renameTables (s : Select) (param column : String) :
    (s.renameTables f).reads param column = s.reads param column := by
  have hkey : (s.renameTables f).isKey param column = s.isKey param column := by
    rw [isKey, isKey, renameTables, Parameters.find?_renameTables]
    cases s.params.find? param with
    | none => rfl
    | some d => rfl
  rw [reads, reads, hkey]
  rfl

/-- A selection reads the same columns from tables of other names. -/
theorem readColumns_renameTables (s : Select) :
    (s.renameTables f).readColumns = s.readColumns := by
  rw [readColumns, readColumns]
  simp only [reads_renameTables]
  rw [renameTables, Parameters.renameTables, Keyed.mapValues, List.flatMap_map]
  rfl

end Select

theorem Statement.conditions_renameTables (st : Statement) :
    (st.renameTables f).conditions = st.conditions := by
  cases st with
  | select s => rfl
  | insert i => rfl
  | update u => rfl
  | delete d => rfl

end

namespace Sql

/-! ## Fragments with other tables -/

section

variable (f : String → String)

@[simp] def Fragment.renameTable : Fragment → Fragment
  | .text s => .text s
  | .table name => .table (f name)
  | .value v => .value v

/-- The text with a prefix is the text without one of tables that carry the prefix. -/
theorem textFrom_renameTable (flavor : Flavor) (style : Style) (p : String) (n : Nat)
    (fragments : List Fragment) : textFrom ⟨flavor, style, p⟩ n fragments =
      textFrom ⟨flavor, style, ""⟩ n (fragments.map (Fragment.renameTable (p ++ ·))) := by
  induction fragments generalizing n with
  | nil => rfl
  | cons fragment rest ih =>
    rw [List.map_cons]
    cases fragment with
    | text s => rw [Fragment.renameTable, textFrom, textFrom, ih]
    | table name => rw [Fragment.renameTable, textFrom, textFrom, ih, String.empty_append]
    | value v => rw [Fragment.renameTable, textFrom, textFrom, ih]

theorem values_map_renameTable (fragments : List Fragment) :
    values (fragments.map (Fragment.renameTable f)) = values fragments := by
  induction fragments with
  | nil => rfl
  | cons fragment rest ih =>
    cases fragment with
    | text s => exact ih
    | table name => exact ih
    | value v => exact congrArg (v :: ·) ih

theorem bound_renameTable (flavor : Flavor) (style : Style) (p : String)
    (fragments : List Fragment) : bound ⟨flavor, style, p⟩ fragments =
      bound ⟨flavor, style, ""⟩ (fragments.map (Fragment.renameTable (p ++ ·))) := by
  cases style with
  | inline => rfl
  | placeholders => exact (values_map_renameTable _ fragments).symm

theorem map_separated (s : String) : (groups : List (List Fragment)) →
    (separated s groups).map (Fragment.renameTable f) =
      separated s (groups.map (List.map (Fragment.renameTable f)))
  | [] => rfl
  | [g] => rfl
  | g :: h :: rest => by
    rw [separated, List.map_append, List.map_cons, map_separated s (h :: rest)]
    rfl

/-- A list of groups that name no table is left as it is. -/
theorem map_commas {α : Type} {group : α → List Fragment}
    (h : ∀ a, (group a).map (Fragment.renameTable f) = group a) (as : List α) :
    (commas (as.map group)).map (Fragment.renameTable f) = commas (as.map group) := by
  rw [commas, map_separated, List.map_map]
  exact congrArg (separated ", ") (List.map_congr_left fun a _ => h a)

/-! ## Parts without tables -/

mutual
@[simp] theorem map_ofValue (v : Value) : (ofValue v).map (Fragment.renameTable f) = ofValue v := by
  cases v with
  | scalar v => rfl
  | list vs =>
    cases vs with
    | nil => rfl
    | cons v rest => simp [ofValue, map_ofValue v, map_ofRest rest]

theorem map_ofRest (vs : List Value) : (ofRest vs).map (Fragment.renameTable f) = ofRest vs := by
  cases vs with
  | nil => rfl
  | cons v rest => simp [ofRest, map_ofValue v, map_ofRest rest]
end

@[simp] theorem map_ofCondition (qualified : Bool) : (c : Condition) →
    (ofCondition qualified c).map (Fragment.renameTable f) = ofCondition qualified c
  | .binary op lhs rhs => by
    simp [ofCondition, map_ofCondition qualified lhs, map_ofCondition qualified rhs]
  | .call .contains [list, item] => by
    simp [ofCondition, map_ofCondition qualified list, map_ofCondition qualified item]
  | .call (.convert _) [c] => map_ofCondition qualified c
  -- Calls with another number of arguments have no text.
  | .call .contains [] | .call .contains [_] | .call .contains (_ :: _ :: _ :: _) => rfl
  | .call (.convert _) [] | .call (.convert _) (_ :: _ :: _) => rfl
  | .constant v => map_ofValue f v
  | .member param column | .parameter param column => rfl

theorem map_of_writeFilter? {qualified : Bool} {filter : Option Condition}
    {fragments : List Fragment} (h : writeFilter? qualified filter = some fragments) :
    fragments.map (Fragment.renameTable f) = fragments := by
  rw [← ofFilter_of_write h]
  cases filter with
  | none => rfl
  | some c => simp [ofFilter]

/-! ## Statements -/

theorem writeLink?_renameTables (ps : Parameters) (l : Link) :
    writeLink? (ps.renameTables f) l =
      (writeLink? ps l).map (List.map (Fragment.renameTable f)) := by
  rw [writeLink?, writeLink?, Parameters.find?_renameTables, writeCondition?_eq]
  cases ps.find? l.right with
  | none => rfl
  | some d =>
    cases l.isDefault with
    | true => rfl
    | false =>
      by_cases hfit : l.condition.badCall? = none
      · simp [Descriptor.renameTable, hfit]
      · simp [hfit]

theorem writeSelect?_renameTables (s : Select) (aliases : AliasTable) :
    writeSelect? (s.renameTables f) aliases =
      (writeSelect? s aliases).map (Prod.map (List.map (Fragment.renameTable f)) id) := by
  have hlinks : s.links.mapM (writeLink? (s.params.renameTables f)) =
      (s.links.mapM (writeLink? s.params)).map (List.map (List.map (Fragment.renameTable f))) := by
    rw [← mapM_map_option]
    exact congrArg (s.links.mapM ·) (funext (writeLink?_renameTables f s.params))
  have hcolumns (ns : List Nat) :
      (commas (List.zipWith ofAliased s.readColumns ns)).map (Fragment.renameTable f) =
        commas (List.zipWith ofAliased s.readColumns ns) := by
    rw [commas, map_separated, List.map_zipWith]
    rfl
  rw [writeSelect?, writeSelect?, Select.readColumns_renameTables]
  simp only [Select.renameTables, Parameters.default?_renameTables, hlinks]
  cases s.params.default? with
  | none => rfl
  | some root =>
    cases s.links.mapM (writeLink? s.params) with
    | none => rfl
    | some links =>
      cases hfilter : writeFilter? true s.filter with
      | none => rfl
      | some filter =>
        simp [map_of_writeFilter? f hfilter, hcolumns, Descriptor.renameTable]

theorem map_ofTuple (row : List Value) :
    (ofTuple row).map (Fragment.renameTable f) = ofTuple row := by
  simp [ofTuple, map_commas f (map_ofValue f) row]

theorem ofInsert_renameTable (flavor : Flavor) (i : Insert) :
    ofInsert flavor { i with target := i.target.renameTable f } =
      (ofInsert flavor i).map (Fragment.renameTable f) := by
  have hrows := map_commas f (map_ofTuple f) i.rows
  rw [ofInsert, ofInsert]
  dsimp only [Descriptor.renameTable]
  -- What the rows and the dialect give stays closed; only the pieces between are mapped.
  generalize (if i.returningKey then flavor.keyHook? else none) = hook
  generalize commas (i.rows.map ofTuple) = rows at hrows ⊢
  simp only [List.map_append, List.map_cons, List.map_nil, Fragment.renameTable,
    apply_ite (List.map (Fragment.renameTable f)), hrows]

theorem map_ofAssignment (assignment : String × Value) :
    (ofAssignment assignment).map (Fragment.renameTable f) = ofAssignment assignment := by
  simp [ofAssignment]

theorem ofUpdateRow_renameTable (d : Descriptor) (row : UpdateRow) :
    ofUpdateRow (d.renameTable f) row =
      (ofUpdateRow d row).map (Fragment.renameTable f) := by
  simp [ofUpdateRow, Descriptor.renameTable, map_commas f (map_ofAssignment f) row.assignments]

theorem ofUpdate_renameTable (u : Update) :
    ofUpdate { u with target := u.target.renameTable f } =
      (ofUpdate u).map (Fragment.renameTable f) := by
  rw [ofUpdate, ofUpdate, map_separated, List.map_map]
  exact congrArg (separated "\n") (List.map_congr_left fun row _ => ofUpdateRow_renameTable f _ row)

theorem writeDelete?_renameTable (d : Delete) :
    writeDelete? { d with target := d.target.renameTable f } =
      (writeDelete? d).map (List.map (Fragment.renameTable f)) := by
  have hparams : Delete.params { d with target := d.target.renameTable f } =
      d.params.renameTables f := rfl
  rw [writeDelete?, writeDelete?, hparams, Parameters.default?_renameTables]
  cases d.params.default? with
  | none => rfl
  | some root =>
    cases hfilter : writeFilter? false d.filter with
    | none => rfl
    | some filter => simp [map_of_writeFilter? f hfilter, Descriptor.renameTable]

/-- Writing a statement commutes with renaming its tables, and so it can be written exactly if it
can be written with other tables. -/
theorem writeStatement?_renameTables (flavor : Flavor) (aliases : AliasTable) (st : Statement) :
    writeStatement? flavor aliases (st.renameTables f) =
      (writeStatement? flavor aliases st).map
        (Prod.map (List.map (Fragment.renameTable f)) id) := by
  cases st with
  | select s => exact writeSelect?_renameTables f s aliases
  | insert i =>
    rw [Statement.renameTables, writeStatement?, ofInsert_renameTable]
    rfl
  | update u =>
    rw [Statement.renameTables, writeStatement?, ofUpdate_renameTable]
    rfl
  | delete d =>
    rw [Statement.renameTables, writeStatement?, writeStatement?, writeDelete?_renameTable]
    cases writeDelete? d with
    | none => rfl
    | some fragments => rfl

/-- A generated key is read back in the same way from a table of another name. -/
theorem followUp_renameTables (flavor : Flavor) (st : Statement) (sql : Option String) :
    followUp flavor (st.renameTables f) = .ok sql ↔ followUp flavor st = .ok sql := by
  cases st with
  | select s => exact Iff.rfl
  | update u => exact Iff.rfl
  | delete d => exact Iff.rfl
  | insert i =>
    rw [Statement.renameTables, followUp, followUp]
    dsimp only
    split
    next =>
      cases flavor.keyHook? with
      | none => simp
      | some hook => cases hook <;> exact Iff.rfl
    next => exact Iff.rfl

end

/-! ## Results -/

/-- A statement has a text exactly if it is let through and can be written. -/
theorem serialize?_eq_some_ok {format : Format} {st : Statement} {aliases : AliasTable}
    {result : Formatted} : format.serialize? st aliases = some (.ok result) ↔
      followUp format.flavor st = .ok result.followUp ∧ checkCalls st.conditions = .ok () ∧
      ∃ fragments, writeStatement? format.flavor aliases st = some (fragments, result.aliases) ∧
        result.sql = layout format fragments ∧ result.params = bound format fragments := by
  rw [Format.serialize?]
  cases followUp format.flavor st with
  | error e => simp
  | ok sql =>
    cases checkCalls st.conditions with
    | error e => simp
    | ok =>
      cases writeStatement? format.flavor aliases st with
      | none => simp
      | some written =>
        constructor
        · rintro ⟨⟩
          exact ⟨rfl, rfl, written.1, rfl, rfl, rfl⟩
        · rintro ⟨⟨⟩, -, fragments, ⟨⟩, hsql, hparams⟩
          cases result
          cases hsql
          cases hparams
          rfl

theorem serialize?_renameTables (flavor : Flavor) (style : Style) (p : String) (st : Statement)
    (aliases : AliasTable) (result : Formatted) :
    Format.serialize? ⟨flavor, style, p⟩ st aliases = some (.ok result) ↔
      Format.serialize? ⟨flavor, style, ""⟩ (st.renameTables (p ++ ·)) aliases =
        some (.ok result) := by
  rw [serialize?_eq_some_ok, serialize?_eq_some_ok, followUp_renameTables,
    Statement.conditions_renameTables, writeStatement?_renameTables]
  refine and_congr_right fun _ => and_congr_right fun _ => ?_
  constructor
  · rintro ⟨fragments, hwritten, hsql, hparams⟩
    refine ⟨fragments.map (Fragment.renameTable (p ++ ·)), ?_, ?_, ?_⟩
    · rw [hwritten]
      rfl
    · rw [hsql, layout, textFrom_renameTable, layout]
    · rw [hparams, bound_renameTable]
  · rintro ⟨renamed, hwritten, hsql, hparams⟩
    obtain ⟨⟨fragments, found⟩, hwritten, heq⟩ := Option.map_eq_some_iff.mp hwritten
    cases heq
    refine ⟨fragments, hwritten, ?_, ?_⟩
    · rw [hsql, layout, layout, textFrom_renameTable flavor style p]
    · rw [hparams, bound_renameTable flavor style p]

/-- A table prefix renames the tables of a statement and does nothing else.  Text, values, aliases
and follow-up of a statement with the prefix are those without it of the statement whose tables
carry the prefix in their names, and there are any on the one side exactly if there are on the
other.  That holds of the writer that stops where a statement has no text, and so also of the one
that runs, on every statement that builders make. -/
theorem serialize_renameTables (flavor : Flavor) (style : Style) (p : String) (st : Statement)
    (aliases : AliasTable) :
    (∀ result, Format.serialize? ⟨flavor, style, p⟩ st aliases = some (.ok result) ↔
      Format.serialize? ⟨flavor, style, ""⟩ (st.renameTables (p ++ ·)) aliases =
        some (.ok result)) ∧
    ∀ catalogue, st.Reached catalogue → ∀ result,
      Format.serialize ⟨flavor, style, p⟩ st aliases = .ok result ↔
        Format.serialize ⟨flavor, style, ""⟩ (st.renameTables (p ++ ·)) aliases =
          .ok result := by
  refine ⟨serialize?_renameTables flavor style p st aliases, fun catalogue hreached result => ?_⟩
  have hwritten := writeStatement?_of_reached hreached flavor aliases
  have hrenamed := writeStatement?_renameTables (p ++ ·) flavor aliases st
  rw [hwritten, Option.map_some] at hrenamed
  have hiff := serialize?_renameTables flavor style p st aliases result
  rw [serialize?_of_write ⟨flavor, style, p⟩ hwritten,
    serialize?_of_write ⟨flavor, style, ""⟩ hrenamed, Option.some_inj, Option.some_inj] at hiff
  exact hiff

/-! ### A selection from tables with a prefix -/

def prefixedOrderText : String :=
  "SELECT x.id AS _c0, x.customer_id AS _c1, i.id AS _c2, i.order_id AS _c3, " ++
    "i.amount AS _c4 FROM app_Orders x LEFT JOIN app_Items i " ++
    "ON ((x.id) = (i.order_id)) AND ((i.amount) > ($1)) " ++
    "WHERE (((x.id) IN ($2, $3)) AND ((i.amount) > ($4))) OR ((x.id) > ($5))"

theorem serialize_renameTables_shop :
    ∃ s, Select.build (.ofCatalogue Select.shop) "Order" none orderSteps = .ok s ∧
      (Statement.select s).Reached Select.shop ∧
      ∃ result, Format.serialize ⟨.postgresql, .placeholders, ""⟩
          ((Statement.select s).renameTables ("app_" ++ ·)) .empty = .ok result ∧
        result.sql = prefixedOrderText := by
  have htext : (Select.build (.ofCatalogue Select.shop) "Order" none orderSteps >>= fun s =>
      (Format.serialize ⟨.postgresql, .placeholders, "app_"⟩ (.select s) .empty >>= fun result =>
        .ok result.sql)) = .ok prefixedOrderText := by cbv
  obtain ⟨s, hbuild, htext⟩ := Outcome.bind_eq_ok.mp htext
  obtain ⟨result, hresult, hsql⟩ := Outcome.bind_eq_ok.mp htext
  have hreached : (Statement.select s).Reached Select.shop :=
    .select (Select.reached_build .fresh hbuild)
  obtain ⟨-, hsame⟩ := serialize_renameTables .postgresql .placeholders "app_" (.select s) .empty
  exact ⟨s, hbuild, hreached, result, (hsame Select.shop hreached result).mp hresult,
    Except.ok.inj hsql⟩

end Sql
end RowGraph
