import RowGraph.Proofs.Outcome
import RowGraph.Proofs.Sql.Layout
import RowGraph.Sql.Formatted

/-!
Values set aside.

A statement can be written with its values as literals or with placeholders for them.  The main
statement is that this is the only difference between the two styles: they refuse the same statements,
give the same aliases, and fill the gaps of one text, the one with literals and the other with
placeholders that are counted from one.  The values set aside are the single values that the statement
holds, each once and in the order in which they are written.
-/

namespace RowGraph

/-! ## The single values that a statement holds -/

mutual
/-- The single values that a value is made of, from left to right.  The empty list is made of none. -/
def Value.scalars : Value → List Scalar
  | .scalar v => [v]
  | .list items => Value.scalarsOf items

def Value.scalarsOf : List Value → List Scalar
  | [] => []
  | v :: rest => v.scalars ++ Value.scalarsOf rest
end

/-- The constants of a condition.  A membership is written with its item before its list. -/
def Condition.scalars : Condition → List Scalar
  | .binary _ lhs rhs => lhs.scalars ++ rhs.scalars
  | .call .contains [list, item] => item.scalars ++ list.scalars
  | .call (.convert _) [c] => c.scalars
  | .call _ _ => []
  | .constant v => v.scalars
  | .member _ _ => []
  | .parameter _ _ => []

def UpdateRow.scalars (row : UpdateRow) : List Scalar :=
  row.assignments.flatMap (fun assignment => assignment.2.scalars) ++ row.key.scalars

/-- The single values that a statement holds, in the order in which they are written.  An insertion
without columns writes no values, and an update writes the rows that change. -/
def Statement.scalars : Statement → List Scalar
  | .select s => s.links.flatMap (·.condition.scalars) ++ s.filter.toList.flatMap Condition.scalars
  | .insert i => if i.columns.isEmpty then [] else i.rows.flatMap Value.scalarsOf
  | .update u => (u.rows.filter (!·.assignments.isEmpty)).flatMap UpdateRow.scalars
  | .delete d => d.filter.toList.flatMap Condition.scalars

theorem Value.flatMap_scalars (items : List Value) :
    items.flatMap Value.scalars = Value.scalarsOf items := by
  induction items with
  | nil => rfl
  | cons v rest ih => rw [List.flatMap_cons, ih, Value.scalarsOf]

theorem Link.scalars_of_isDefault {l : Link} (h : l.isDefault = true) :
    l.condition.scalars = [] := by
  rw [isDefault, predicate, Condition.eq] at h
  cases hc : l.condition with
  | binary op lhs rhs =>
    rw [hc, Condition.same, Bool.and_eq_true, Bool.and_eq_true] at h
    obtain ⟨⟨-, hl⟩, hr⟩ := h
    cases lhs <;> cases rhs <;> simp_all [Condition.same, Condition.scalars]
  | call f args => simp [hc, Condition.same] at h
  | constant v => simp [hc, Condition.same] at h
  | member param column => rfl
  | parameter param key => rfl

namespace Sql

/-! ## The values of what is written -/

mutual
theorem values_ofValue : (v : Value) → values (ofValue v) = v.scalars
  | .scalar v => rfl
  | .list [] => rfl
  | .list (v :: rest) => by
    simp only [ofValue, List.cons_append, values_text, values_append, values_nil, List.append_nil,
      values_ofValue v, values_ofRest rest, Value.scalars, Value.scalarsOf]

theorem values_ofRest : (items : List Value) → values (ofRest items) = Value.scalarsOf items
  | [] => rfl
  | v :: rest => by
    simp only [ofRest, List.cons_append, values_text, values_append, values_ofValue v,
      values_ofRest rest, Value.scalarsOf]
end

theorem values_ofCondition (qualified : Bool) (c : Condition) :
    values (ofCondition qualified c) = c.scalars := by
  fun_induction ofCondition qualified c with
  | case1 op lhs rhs ihl ihr => simp [ihl, ihr, Condition.scalars]
  | case2 list item ihi ihl => simp [ihi, ihl, Condition.scalars]
  | case3 ty c ih => rw [ih, Condition.scalars]
  | case4 f args hcontains hconvert =>
    rw [values_nil, Condition.scalars.eq_def]
    grind
  | case5 v => rw [values_ofValue, Condition.scalars]
  | case6 param column => rfl
  | case7 param key => rfl

theorem values_ofFilter (qualified : Bool) (filter : Option Condition) :
    values (ofFilter qualified filter) = filter.toList.flatMap Condition.scalars := by
  cases filter with
  | none => rfl
  | some c => simp [ofFilter, values_ofCondition]

theorem values_ofLink (params : Parameters) (l : Link) :
    values (ofLink params l) = l.condition.scalars := by
  rw [ofLink, values_append, ofLinkCondition]
  by_cases hdefault : l.isDefault = true
  · rw [if_pos hdefault, Link.scalars_of_isDefault hdefault]
    rfl
  · rw [if_neg hdefault, values_ofCondition]
    rfl

theorem values_ofSelect (s : Select) (aliases : AliasTable) :
    values (ofSelect s aliases).1 = (Statement.select s).scalars := by
  have hcolumns : ∀ (columns : List (String × String)) (ns : List Nat),
      (List.zipWith ofAliased columns ns).flatMap values = [] := by
    intro columns ns
    rw [← List.map_uncurry_zip_eq_zipWith, List.flatMap_map, List.flatMap_eq_nil_iff]
    exact fun _ _ => rfl
  have hlinks : values (s.links.flatMap (ofLink s.params)) =
      s.links.flatMap (·.condition.scalars) := by
    induction s.links with
    | nil => rfl
    | cons l rest ih =>
      rw [List.flatMap_cons, values_append, ih, values_ofLink, List.flatMap_cons]
  simp [ofSelect, hcolumns, hlinks, values_ofFilter, Statement.scalars]

theorem values_ofInsert (flavor : Flavor) (i : Insert) :
    values (ofInsert flavor i) = (Statement.insert i).scalars := by
  have htuple : ∀ row, values (ofTuple row) = Value.scalarsOf row := by
    intro row
    simp [ofTuple, List.flatMap_map, values_ofValue, Value.flatMap_scalars]
  have hhook : ∀ (p : Prop) [Decidable p] (s : String),
      values (if p then [.text s] else []) = [] := by
    intro p _ s
    split <;> rfl
  have hname : ∀ b : Bool, values (if b then [] else
      [.text (" (" ++ String.intercalate ", " i.columns ++ ")")]) = [] := by
    intro b
    cases b <;> rfl
  rw [ofInsert, Statement.scalars]
  by_cases hempty : i.columns.isEmpty = true
  · simp [hempty, hhook]
  · simp [hempty, hhook, List.flatMap_map, htuple]

theorem values_ofAssignment (assignment : String × Value) :
    values (ofAssignment assignment) = assignment.2.scalars := by
  rw [ofAssignment, values_text, values_ofValue]

theorem values_ofUpdateRow (d : Descriptor) (row : UpdateRow) :
    values (ofUpdateRow d row) = row.scalars := by
  simp [ofUpdateRow, UpdateRow.scalars, List.flatMap_map, values_ofAssignment, values_ofValue]

theorem values_ofUpdate (u : Update) : values (ofUpdate u) = (Statement.update u).scalars := by
  simp [ofUpdate, Statement.scalars, List.flatMap_map, values_ofUpdateRow]

theorem values_ofStatement (flavor : Flavor) (aliases : AliasTable) (st : Statement) :
    values (ofStatement flavor aliases st).1 = st.scalars := by
  cases st with
  | select s => exact values_ofSelect s aliases
  | insert i => exact values_ofInsert flavor i
  | update u => exact values_ofUpdate u
  | delete d => simp [ofStatement, ofDelete, values_ofFilter, Statement.scalars]

/-! ## The two styles -/

theorem serialize_eq_ok {format : Format} {st : Statement} {start : AliasTable} {f : Formatted}
    (h : format.serialize st start = .ok f) :
    followUp format.flavor st = .ok f.followUp ∧
      f.sql = layout format (ofStatement format.flavor start st).1 := by
  rw [Format.serialize, Outcome.bind_eq_ok] at h
  obtain ⟨next, hnext, h⟩ := h
  rw [Outcome.bind_eq_ok] at h
  obtain ⟨-, -, h⟩ := h
  cases h
  exact ⟨hnext, rfl⟩

/-- What is refused, and why, and which aliases are given, does not depend on the style. -/
theorem serialize_cases (flavor : Flavor) (tablePrefix : String) (st : Statement)
    (aliases : AliasTable) :
    (∃ e, ∀ style, Format.serialize ⟨flavor, style, tablePrefix⟩ st aliases = .error e) ∨
    ∃ followUp, ∀ style, Format.serialize ⟨flavor, style, tablePrefix⟩ st aliases =
      .ok ⟨layout ⟨flavor, style, tablePrefix⟩ (ofStatement flavor aliases st).1,
        bound ⟨flavor, style, tablePrefix⟩ (ofStatement flavor aliases st).1,
        (ofStatement flavor aliases st).2, followUp⟩ := by
  cases hfollow : followUp flavor st with
  | error e =>
    refine Or.inl ⟨e, fun style => ?_⟩
    rw [Format.serialize, hfollow]
    rfl
  | ok next =>
    cases hcalls : checkCalls st.conditions with
    | error e =>
      refine Or.inl ⟨e, fun style => ?_⟩
      rw [Format.serialize, hfollow, hcalls]
      rfl
    | ok =>
      refine Or.inr ⟨next, fun style => ?_⟩
      rw [Format.serialize, hfollow, hcalls]
      rfl

/-- The two styles of a statement are refused alike or differ in nothing but what fills the gaps of
one text: in the one style the literals of the values that the statement holds, in the other
placeholders counted from one, beside which these values are handed over. -/
theorem serialize_styles (flavor : Flavor) (tablePrefix : String) (st : Statement)
    (aliases : AliasTable) :
    (∃ e, Format.serialize ⟨flavor, .inline, tablePrefix⟩ st aliases = .error e ∧
      Format.serialize ⟨flavor, .placeholders, tablePrefix⟩ st aliases = .error e) ∨
    ∃ (inline placeholders : Formatted) (t : Template),
      Format.serialize ⟨flavor, .inline, tablePrefix⟩ st aliases = .ok inline ∧
      Format.serialize ⟨flavor, .placeholders, tablePrefix⟩ st aliases = .ok placeholders ∧
      inline.aliases = placeholders.aliases ∧ inline.followUp = placeholders.followUp ∧
      t.values = st.scalars ∧ inline.params = [] ∧ placeholders.params = t.values ∧
      inline.sql = t.fill (fun _ v => literal flavor v) ∧
      placeholders.sql = t.fill (fun n _ => flavor.placeholder n) := by
  rcases serialize_cases flavor tablePrefix st aliases with ⟨e, he⟩ | ⟨next, hok⟩
  · exact Or.inl ⟨e, he .inline, he .placeholders⟩
  · have hvalues := values_ofStatement flavor aliases st
    refine Or.inr ⟨_, _, Template.ofFragments tablePrefix (ofStatement flavor aliases st).1,
      hok .inline, hok .placeholders, rfl, rfl, ?_, rfl, ?_, ?_, ?_⟩
    · rw [Template.values_ofFragments, hvalues]
    · exact (Template.values_ofFragments _ _).symm
    · exact layout_eq_fill _ _
    · exact layout_eq_fill _ _

end Sql
end RowGraph
