import RowGraph.Proofs.Lists
import RowGraph.Proofs.Statement.Built
import RowGraph.Proofs.Statement.Scoping
import RowGraph.Sql.Formatted

/-!
Statements that can be written.

A statement may have no text: a call with the wrong number of arguments has none, nor does a table
whose parameter is not there.  The writers of this file say so, where those that run go on with
something in its place.  The two agree on every statement that builders make, so such a statement
is refused for one reason only: a generated key that the dialect cannot read back.
-/

namespace RowGraph
namespace Sql

/-! ## Writers that stop -/

/-- A condition; nothing if it has a call with the wrong number of arguments. -/
def writeCondition? (qualified : Bool) : Condition → Option (List Fragment)
  | .binary op lhs rhs => do
    let l ← writeCondition? qualified lhs
    let r ← writeCondition? qualified rhs
    return .text "(" :: l ++ .text (") " ++ op.symbol ++ " (") :: r ++ [.text ")"]
  | .call .contains [list, item] => do
    let item ← writeCondition? qualified item
    let list ← writeCondition? qualified list
    return .text "(" :: item ++ .text ") IN " :: list
  | .call (.convert _) [c] => writeCondition? qualified c
  | .call _ _ => none
  | .constant v => some (ofValue v)
  | .member param column => some (ofColumn qualified param column)
  | .parameter param key => some (ofColumn qualified param key)

def writeFilter? (qualified : Bool) : Option Condition → Option (List Fragment)
  | some c => (writeCondition? qualified c).map (.text " WHERE " :: ·)
  | none => some []

/-- A link; nothing if no parameter has the name that it leads to. -/
def writeLink? (params : Parameters) (l : Link) : Option (List Fragment) := do
  let target ← params.find? l.right
  let on ← if l.isDefault then some [.text l.fragment] else writeCondition? true l.condition
  return [.text " LEFT JOIN ", .table target.table, .text (" " ++ l.right ++ " ON ")] ++ on

/-- A selection; nothing if it has no root. -/
def writeSelect? (s : Select) (aliases : AliasTable) : Option (List Fragment × AliasTable) := do
  let (ns, aliases) := aliases.assignAll s.readColumns
  let (name, root) ← s.params.default?
  let links ← s.links.mapM (writeLink? s.params)
  let filter ← writeFilter? true s.filter
  return (.text "SELECT " :: commas (List.zipWith ofAliased s.readColumns ns)
    ++ [.text " FROM ", .table root.table, .text (" " ++ name)] ++ links.flatten ++ filter, aliases)

def writeDelete? (d : Delete) : Option (List Fragment) := do
  let (_, target) ← d.params.default?
  let filter ← writeFilter? false d.filter
  return [.text "DELETE FROM ", .table target.table] ++ filter ++ [.text ";"]

def writeStatement? (flavor : Flavor) (aliases : AliasTable) :
    Statement → Option (List Fragment × AliasTable)
  | .select s => writeSelect? s aliases
  | .insert i => some (ofInsert flavor i, aliases)
  | .update u => some (ofUpdate u, aliases)
  | .delete d => (writeDelete? d).map fun fragments => (fragments, aliases)

/-- The text of a statement or its refusal; nothing if the statement is let through and has no
text. -/
def Format.serialize? (format : Format) (st : Statement) (aliases : AliasTable) :
    Option (Outcome Formatted) :=
  match followUp format.flavor st, checkCalls st.conditions with
  | .error e, _ => some (.error e)
  | .ok _, .error e => some (.error e)
  | .ok followUp, .ok () => do
    let (fragments, aliases) ← writeStatement? format.flavor aliases st
    return .ok ⟨layout format fragments, bound format fragments, aliases, followUp⟩

/-! ## What can be written -/

/-- The check before writing lets exactly those conditions through that can be written. -/
theorem writeCondition?_eq (qualified : Bool) (c : Condition) :
    writeCondition? qualified c =
      if c.badCall? = none then some (ofCondition qualified c) else none := by
  fun_induction writeCondition? qualified c with
  | case1 op lhs rhs ihl ihr =>
    rw [ihl, ihr, ofCondition, Condition.badCall?]
    cases lhs.badCall? <;> cases rhs.badCall? <;> rfl
  | case2 list item ihi ihl =>
    rw [ihi, ihl, ofCondition, Condition.badCall?, Condition.badCallIn?, Condition.badCallIn?,
      Condition.badCallIn?]
    cases list.badCall? <;> cases item.badCall? <;> rfl
  | case3 ty c ih =>
    rw [ih, ofCondition, Condition.badCall?, Condition.badCallIn?, Condition.badCallIn?]
    cases c.badCall? <;> rfl
  | case4 f args hcontains hconvert =>
    -- Lists of the right length are those of the cases before.
    have harity : args.length ≠ f.arity := by
      intro hlength
      cases f with
      | contains =>
        obtain ⟨list, item, rfl⟩ := List.length_eq_two.mp hlength
        exact hcontains list item rfl rfl
      | convert ty =>
        obtain ⟨c, rfl⟩ := List.length_eq_one_iff.mp hlength
        exact hconvert ty c rfl rfl
    rw [Condition.badCall?, if_neg harity, if_neg (Option.some_ne_none _)]
  | case5 v => rfl
  | case6 param column => rfl
  | case7 param key => rfl

theorem checkCalls_eq_ok {conditions : List Condition} :
    checkCalls conditions = .ok () ↔ ∀ c ∈ conditions, c.CallsFit := by
  rw [checkCalls]
  cases hbad : conditions.findSome? Condition.badCall? with
  | none =>
    rw [List.findSome?_eq_none_iff] at hbad
    exact ⟨fun _ => hbad, fun _ => rfl⟩
  | some bad =>
    obtain ⟨c, hc, hcbad⟩ := List.exists_of_findSome?_eq_some hbad
    refine ⟨fun h => (by cases h), fun hfit => ?_⟩
    rw [hfit c hc] at hcbad
    cases hcbad

section

variable {c : Condition} {l : Link} {params : Parameters} {s : Select} {d : Delete}

theorem writeCondition?_of_callsFit (qualified : Bool) (h : c.CallsFit) :
    writeCondition? qualified c = some (ofCondition qualified c) := by
  rw [Condition.CallsFit] at h
  rw [writeCondition?_eq, if_pos h]

theorem writeFilter?_of_callsFit (qualified : Bool) {filter : Option Condition}
    (h : ∀ c, filter = some c → c.CallsFit) :
    writeFilter? qualified filter = some (ofFilter qualified filter) := by
  cases filter with
  | none => rfl
  | some c =>
    rw [writeFilter?, writeCondition?_of_callsFit qualified (h c rfl)]
    rfl

theorem table_of_find? {name : String} {d : Descriptor} (h : params.find? name = some d) :
    params.table name = d.table := by
  rw [Parameters.table, h]

theorem writeLink?_of_find? {related : Descriptor} (hright : params.find? l.right = some related)
    (hfit : l.condition.CallsFit) : writeLink? params l = some (ofLink params l) := by
  rw [writeLink?, hright, ofLink, ofLinkCondition, table_of_find? hright,
    writeCondition?_of_callsFit true hfit]
  split
  next => rfl
  next => rfl

/-- The links of a selection lead to parameters that are there, and so does its root. -/
theorem writeSelect?_of_reached {catalogue : Catalogue} (h : s.Reached catalogue)
    (aliases : AliasTable) : writeSelect? s aliases = some (ofSelect s aliases) := by
  obtain ⟨hfilter, hlinks⟩ := Select.callsFit_iff.mp h.callsFit
  have hwritten : s.links.mapM (writeLink? s.params) = some (s.links.map (ofLink s.params)) := by
    refine mapM_eq_some_map fun l hl => ?_
    obtain ⟨owner, related, relation, hfollows⟩ := h.wellFormed.follows l hl
    exact writeLink?_of_find? hfollows.right (hlinks l hl)
  obtain ⟨root, hroot⟩ : ∃ root, s.params.find? s.rootName = some root := by
    refine Option.ne_none_iff_exists'.mp fun hnone => Keyed.find?_eq_none.mp hnone ?_
    change s.rootName ∈ s.params.names
    rw [h.wellFormed.names]
    exact List.mem_cons_self
  have hdefault : s.params.default? = some (s.rootName, root) := by
    rw [Parameters.default?, h.default_eq, Option.bind_some, hroot]
    rfl
  rw [writeSelect?, hdefault, hwritten, writeFilter?_of_callsFit true hfilter, ofSelect,
    table_of_find? hroot, List.flatMap_def]
  rfl

theorem default?_params (d : Delete) : d.params.default? = some (d.param, d.target) := by
  simp [Delete.params, Parameters.root, Parameters.default?, Parameters.find?, Keyed.find?]

theorem writeDelete?_of_callsFit (h : (Statement.delete d).CallsFit) :
    writeDelete? d = some (ofDelete d) := by
  rw [writeDelete?, default?_params,
    writeFilter?_of_callsFit false (Delete.callsFit_iff.mp h)]
  rfl

theorem writeStatement?_of_reached {catalogue : Catalogue} {st : Statement}
    (h : st.Reached catalogue) (flavor : Flavor) (aliases : AliasTable) :
    writeStatement? flavor aliases st = some (ofStatement flavor aliases st) := by
  cases h with
  | select hs => exact writeSelect?_of_reached hs aliases
  | insert => rfl
  | update => rfl
  | delete hd =>
    rw [writeStatement?, writeDelete?_of_callsFit hd.callsFit]
    rfl

end

/-! ## What is written is what runs

A statement that a writer of this file has a text for is given the same text by the writer that
runs, whether a builder made the statement or not. -/

section

variable {qualified : Bool} {params : Parameters} {aliases : AliasTable}
  {fragments : List Fragment}

theorem ofFilter_of_write {filter : Option Condition}
    (h : writeFilter? qualified filter = some fragments) :
    ofFilter qualified filter = fragments := by
  cases filter with
  | none => exact Option.some.inj h
  | some c =>
    rw [writeFilter?, writeCondition?_eq] at h
    split at h
    next => exact Option.some.inj h
    next => cases h

theorem ofLink_of_write {l : Link} (h : writeLink? params l = some fragments) :
    ofLink params l = fragments := by
  rw [writeLink?, writeCondition?_eq] at h
  cases hright : params.find? l.right with
  | none =>
    rw [hright] at h
    cases h
  | some target =>
    rw [hright] at h
    rw [ofLink, ofLinkCondition, table_of_find? hright]
    cases hdefault : l.isDefault with
    | true =>
      rw [hdefault] at h
      exact Option.some.inj h
    | false =>
      by_cases hfit : l.condition.badCall? = none
      · rw [hdefault, if_pos hfit] at h
        exact Option.some.inj h
      · rw [hdefault, if_neg hfit] at h
        cases h

theorem table_of_default? {name : String} {root : Descriptor}
    (h : params.default? = some (name, root)) :
    params.default = some name ∧ params.table name = root.table := by
  obtain ⟨found, hdefault, hfind⟩ := Option.bind_eq_some_iff.mp h
  obtain ⟨d, hd, heq⟩ := Option.map_eq_some_iff.mp hfind
  cases heq
  exact ⟨hdefault, table_of_find? hd⟩

theorem ofSelect_of_write {s : Select} {written : List Fragment × AliasTable}
    (h : writeSelect? s aliases = some written) : ofSelect s aliases = written := by
  obtain ⟨⟨name, root⟩, hroot, h⟩ := Option.bind_eq_some_iff.mp h
  obtain ⟨links, hlinks, h⟩ := Option.bind_eq_some_iff.mp h
  obtain ⟨filter, hfilter, h⟩ := Option.bind_eq_some_iff.mp h
  obtain ⟨hdefault, htable⟩ := table_of_default? hroot
  have hname : s.rootName = name := by
    rw [Select.rootName, hdefault]
    rfl
  rw [ofSelect, hname, htable, List.flatMap_def,
    map_eq_of_mapM (fun l _ => ofLink_of_write) hlinks, ofFilter_of_write hfilter]
  exact Option.some.inj h

theorem ofDelete_of_write {d : Delete} (h : writeDelete? d = some fragments) :
    ofDelete d = fragments := by
  rw [writeDelete?, default?_params] at h
  obtain ⟨-, ⟨⟩, h⟩ := Option.bind_eq_some_iff.mp h
  obtain ⟨filter, hfilter, h⟩ := Option.bind_eq_some_iff.mp h
  rw [ofDelete, ofFilter_of_write hfilter]
  exact Option.some.inj h

theorem ofStatement_of_write {flavor : Flavor} {st : Statement}
    {written : List Fragment × AliasTable}
    (h : writeStatement? flavor aliases st = some written) :
    ofStatement flavor aliases st = written := by
  cases st with
  | select s => exact ofSelect_of_write h
  | insert i => exact Option.some.inj h
  | update u => exact Option.some.inj h
  | delete d =>
    obtain ⟨fragments, hd, heq⟩ := Option.map_eq_some_iff.mp h
    rw [ofStatement, ofDelete_of_write hd, heq]

theorem serialize?_of_write (format : Format) {st : Statement}
    {written : List Fragment × AliasTable}
    (h : writeStatement? format.flavor aliases st = some written) :
    format.serialize? st aliases = some (format.serialize st aliases) := by
  rw [Format.serialize?, Format.serialize, h, ofStatement_of_write h]
  cases followUp format.flavor st with
  | error e => rfl
  | ok followUp =>
    cases checkCalls st.conditions with
    | error e => rfl
    | ok => rfl

end

/-! ## What is refused -/

theorem Flavor.keyHook?_eq_none {flavor : Flavor} : flavor.keyHook? = none ↔ flavor = .generic := by
  cases flavor <;> simp [keyHook?]

theorem followUp_eq_error {flavor : Flavor} {st : Statement} {e : Error} :
    followUp flavor st = .error e ↔ ∃ i, st = .insert i ∧ i.returningKey = true ∧
      flavor = .generic ∧ e = .missingDialectHook (.generatedKey .generic i.target.table) := by
  cases st with
  | insert i =>
    rw [followUp]
    constructor
    · intro h
      split at h
      next hreturning =>
        split at h
        next => cases h
        next => cases h
        next hnone =>
          obtain rfl := Flavor.keyHook?_eq_none.mp hnone
          cases h
          exact ⟨i, rfl, hreturning, rfl, rfl⟩
      next => cases h
    · rintro ⟨_, ⟨⟩, hreturning, rfl, rfl⟩
      rw [if_pos hreturning]
      rfl
  | select s => simp [followUp]
  | update u => simp [followUp]
  | delete d => simp [followUp]

section

variable {format : Format} {st : Statement} {aliases : AliasTable}

/-- If its calls fit, a statement is refused for its key only. -/
theorem serialize_of_callsFit (h : st.CallsFit) : format.serialize st aliases =
    (followUp format.flavor st).map fun followUp =>
      ⟨layout format (ofStatement format.flavor aliases st).1,
        bound format (ofStatement format.flavor aliases st).1,
        (ofStatement format.flavor aliases st).2, followUp⟩ := by
  rw [Format.serialize, checkCalls_eq_ok.mpr h]
  cases followUp format.flavor st with
  | error e => rfl
  | ok followUp => rfl

theorem serialize?_of_reached {catalogue : Catalogue} (h : st.Reached catalogue) :
    format.serialize? st aliases = some (format.serialize st aliases) :=
  serialize?_of_write format (writeStatement?_of_reached h format.flavor aliases)

theorem serialize_eq_error {e : Error} (h : st.CallsFit) :
    format.serialize st aliases = .error e ↔ followUp format.flavor st = .error e := by
  rw [serialize_of_callsFit h]
  cases followUp format.flavor st with
  | error e' => rw [Except.map, Except.error.injEq, Except.error.injEq]
  | ok followUp => simp [Except.map]

end

/-- Every statement that builders make has a text or is refused, in every dialect and style and
with any aliases given before.  The refused ones are the insertions that ask a dialect for a
generated key that it cannot read back. -/
theorem serialize_total_of_reached {catalogue : Catalogue} {st : Statement}
    (h : st.Reached catalogue) (format : Format) (aliases : AliasTable) :
    format.serialize? st aliases = some (format.serialize st aliases) ∧
    (∀ e, format.serialize st aliases = .error e ↔
      ∃ i, st = .insert i ∧ i.returningKey = true ∧ format.flavor = .generic ∧
        e = .missingDialectHook (.generatedKey .generic i.target.table)) ∧
    ∀ e, format.serialize st aliases = .error e →
      e.is .missingDialectHook = true ∧ e.is .unsupportedExpression = false := by
  have hrefused : ∀ e, format.serialize st aliases = .error e ↔
      ∃ i, st = .insert i ∧ i.returningKey = true ∧ format.flavor = .generic ∧
        e = .missingDialectHook (.generatedKey .generic i.target.table) := by
    intro e
    rw [serialize_eq_error h.callsFit, followUp_eq_error]
  refine ⟨serialize?_of_reached h, hrefused, fun e he => ?_⟩
  obtain ⟨i, -, -, -, rfl⟩ := (hrefused e).mp he
  exact ⟨rfl, rfl⟩

/-! ### A selection that is written and an insertion that is refused -/

/-- Orders with the items that are not free, of which two orders show the large ones only. -/
def orderSteps : List Select.Step :=
  [.join ⟨"items", none, some "i",
    some (.and (.eq (.member (.ofModel "Item" ["order_id"])) (.member (.ofModel "Order" ["id"])))
      (.binary .gt (.member (.ofModel "Item" ["amount"])) (.value (.scalar (.i64 0)))))⟩,
   .restrict (.or
    (.and (.inList (.member (.ofModel "Order" ["id"]))
        (.value (.list [.scalar (.i64 1), .scalar (.i64 2)])))
      (.binary .gt (.member (.ofModel "Item" ["amount"])) (.value (.scalar (.i64 3)))))
    (.binary .gt (.member (.ofModel "Order" ["id"])) (.value (.scalar (.i16 2)))))]

def orderText : String :=
  "SELECT x.id AS _c0, x.customer_id AS _c1, i.id AS _c2, i.order_id AS _c3, " ++
    "i.amount AS _c4 FROM Orders x LEFT JOIN Items i " ++
    "ON ((x.id) = (i.order_id)) AND ((i.amount) > (0)) " ++
    "WHERE (((x.id) IN (1, 2)) AND ((i.amount) > (3))) OR ((x.id) > (2))"

def item : Descriptor where
  model := "Item"
  table := "Items"
  primaryKey := "id"
  columns := [⟨"id", some "id", .i64, none, true⟩, ⟨"order_id", some "order_id", .i64, none, false⟩,
    ⟨"amount", some "amount", .i64, none, false⟩]
  relations := []
  references := []

/-- An item of an order, without a key of its own. -/
def newItem : Insert :=
  .ofRow item (.ofList [("order_id", .scalar (.i64 7)), ("amount", .scalar (.i64 3))])

theorem serialize_total_shop :
    (∃ s, Select.build (.ofCatalogue Select.shop) "Order" none orderSteps = .ok s ∧
      (Statement.select s).Reached Select.shop ∧
      (Format.serialize? ⟨.generic, .inline, ""⟩ (.select s) .empty).map (·.map (·.sql)) =
        some (.ok orderText)) ∧
    (Statement.insert newItem).Reached Select.shop ∧
    Format.serialize? ⟨.generic, .inline, ""⟩ (.insert newItem) .empty =
      some (.error (.missingDialectHook (.generatedKey .generic "Items"))) := by
  constructor
  · have htext : (Select.build (.ofCatalogue Select.shop) "Order" none orderSteps >>= fun s =>
        (Format.serialize ⟨.generic, .inline, ""⟩ (.select s) .empty).map (·.sql)) =
        .ok orderText := by cbv
    obtain ⟨s, hbuild, htext⟩ := Outcome.bind_eq_ok.mp htext
    have hreached : (Statement.select s).Reached Select.shop :=
      .select (Select.reached_build .fresh hbuild)
    refine ⟨s, hbuild, hreached, ?_⟩
    rw [(serialize_total_of_reached hreached _ _).1, Option.map_some, htext]
  · have hitem : Select.shop.Describes item := ⟨[], by cbv⟩
    have hreached : (Statement.insert newItem).Reached Select.shop := .insert (.ofRow _ hitem)
    have hreturning : newItem.returningKey = true := by cbv
    refine ⟨hreached, ?_⟩
    rw [(serialize_total_of_reached hreached _ _).1,
      ((serialize_total_of_reached hreached _ _).2.1 _).mpr ⟨newItem, rfl, hreturning, rfl, rfl⟩]
    rfl

end Sql
end RowGraph
