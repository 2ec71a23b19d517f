import RowGraph.Proofs.Compilation.Columns
import RowGraph.Statement.Link

/-!
Where a link takes its keys from.

A condition of the caller names its keys by columns that both tables have.  Without a condition the
declarations of the collection name them, and nothing is asked about the columns.
-/

namespace RowGraph
namespace Link

/-- The keys of a link are columns of its tables, or they are those that the collection declares. -/
inductive Keys (l : Link) (owner related : Descriptor) (relation : Relation) : Prop
  | present (primary : l.primaryKey ∈ owner.columns.map Column.name)
      (foreign : l.foreignKey ∈ related.columns.map Column.name)
  | declared (primary : l.primaryKey = relation.primaryKey)
      (foreign : foreignKeyOf owner related relation = .ok l.foreignKey)

/-- The link follows a collection from one of the parameters to another. -/
structure Follows (l : Link) (ps : Parameters) (owner related : Descriptor)
    (relation : Relation) : Prop where
  left : ps.find? l.left = some owner
  right : ps.find? l.right = some related
  member : owner.relation? l.member = some relation
  target : relation.target = related.model
  keys : l.Keys owner related relation

theorem paramType_eq_ok {ps : Parameters} {name : String} {d : Descriptor} :
    paramType ps name = .ok d ↔ ps.find? name = some d := by
  rw [paramType]
  cases ps.find? name with
  | none => simp
  | some found => simp

theorem relationOf_eq_ok {d : Descriptor} {member : String} {relation : Relation} :
    relationOf d member = .ok relation ↔ d.relation? member = some relation := by
  rw [relationOf]
  cases d.relation? member with
  | none => simp
  | some found => simp

/-- The only column that holds a key of the owner's table is one that does. -/
theorem boundColumn_eq_ok {owner related : Descriptor} {member name : String}
    (h : boundColumn owner related member = .ok name) :
    ∃ column ∈ related.columns, column.name = name ∧
      column.binding.any (·.table == owner.table) = true := by
  rw [boundColumn] at h
  split at h
  next only honly =>
    cases h
    have hmem : name ∈ (related.columnsBoundTo owner.table).map (·.name) := by
      rw [honly]
      exact List.mem_cons_self
    rw [Descriptor.columnsBoundTo] at hmem
    obtain ⟨column, hcolumn, hname⟩ := List.mem_map.mp hmem
    obtain ⟨hcolumn, hbound⟩ := List.mem_filter.mp hcolumn
    exact ⟨column, hcolumn, hname, hbound⟩
  next => cases h
  next => cases h

/-- A column that is seen through conversions is read. -/
theorem mem_columns_of_column? {condition : Condition} {place : String × String}
    (h : condition.column? = some place) : place ∈ condition.columns := by
  fun_induction Condition.column? condition with
  | case1 param column =>
    cases h
    exact List.mem_cons_self
  | case2 param key =>
    cases h
    exact List.mem_cons_self
  | case3 ty inner rest ih => exact List.mem_append_left _ (ih h)
  | case4 => cases h

theorem columns_conjuncts {condition part : Condition} (h : part ∈ condition.conjuncts) :
    part.columns ⊆ condition.columns := by
  fun_induction Condition.conjuncts condition with
  | case1 lhs rhs ihl ihr =>
    rw [List.mem_append] at h
    rw [Condition.columns]
    rcases h with h | h
    · exact List.Subset.trans (ihl h) (List.subset_append_left _ _)
    · exact List.Subset.trans (ihr h) (List.subset_append_right _ _)
  | case2 =>
    rw [List.mem_singleton] at h
    subst h
    exact List.Subset.refl _

/-- The keys that a condition names stand on the two sides of one of the equations that must hold. -/
theorem exists_equation {condition : Condition} {left right primaryKey foreignKey : String}
    (h : keyPair condition left right = .ok (primaryKey, foreignKey)) :
    ∃ lhs rhs, .binary .eq lhs rhs ∈ condition.conjuncts ∧
      lhs.column? = some (left, primaryKey) ∧ rhs.column? = some (right, foreignKey) := by
  rw [keyPair] at h
  split at h
  next keys hkeys =>
    cases h
    obtain ⟨part, hpart, hequated⟩ := List.exists_of_findSome?_eq_some hkeys
    rw [equated?.eq_def] at hequated
    split at hequated
    next lhs rhs =>
      split at hequated
      next l pk r fk hl hr =>
        split at hequated
        next hsides =>
          obtain ⟨rfl, rfl⟩ := hsides
          cases hequated
          exact ⟨lhs, rhs, hpart, hl, hr⟩
        next => cases hequated
      next => cases hequated
    next => cases hequated
  next => cases h

/-- The keys that a condition names are columns that it reads. -/
theorem keyPair_eq_ok {condition : Condition} {left right primaryKey foreignKey : String}
    (h : keyPair condition left right = .ok (primaryKey, foreignKey)) :
    (left, primaryKey) ∈ condition.columns ∧ (right, foreignKey) ∈ condition.columns := by
  obtain ⟨lhs, rhs, hpart, hl, hr⟩ := exists_equation h
  have hsub := columns_conjuncts hpart
  exact ⟨hsub (List.mem_append_left _ (mem_columns_of_column? hl)),
    hsub (List.mem_append_right _ (mem_columns_of_column? hr))⟩

/-- A link that is built follows a collection of its owner.  Either its condition is compiled from
the caller's and names its keys, or it joins on the keys that the declarations name. -/
theorem build_cases {registry : Registry} {ps : Parameters} {left member right : String}
    {on : Option Expr} {l : Link} (h : build registry ps left member right on = .ok l) :
    l.left = left ∧ l.right = right ∧ l.member = member ∧ ∃ owner related relation,
      ps.find? left = some owner ∧ ps.find? right = some related ∧
      owner.relation? member = some relation ∧ relation.target = related.model ∧
      ((∃ e, on = some e ∧ (Scope.join registry ps left right).compile e = .ok l.condition ∧
          keyPair l.condition left right = .ok (l.primaryKey, l.foreignKey)) ∨
        on = none ∧ l.condition = l.predicate ∧ l.primaryKey = relation.primaryKey ∧
          foreignKeyOf owner related relation = .ok l.foreignKey) := by
  rw [build, Outcome.bind_eq_ok] at h
  obtain ⟨owner, howner, h⟩ := h
  rw [Outcome.bind_eq_ok] at h
  obtain ⟨related, hrelated, h⟩ := h
  rw [Outcome.bind_eq_ok] at h
  obtain ⟨relation, hrelation, h⟩ := h
  rw [paramType_eq_ok] at howner hrelated
  rw [relationOf_eq_ok] at hrelation
  by_cases htarget : relation.target = related.model
  · simp only [ne_eq, htarget, not_true_eq_false, if_false] at h
    cases on with
    | some e =>
      simp only [Outcome.bind_eq_ok] at h
      obtain ⟨condition, hcondition, ⟨primaryKey, foreignKey⟩, hkeys, h⟩ := h
      cases h
      exact ⟨rfl, rfl, rfl, owner, related, relation, howner, hrelated, hrelation, htarget,
        Or.inl ⟨e, rfl, hcondition, hkeys⟩⟩
    | none =>
      simp only [Outcome.bind_eq_ok] at h
      obtain ⟨foreignKey, hforeign, h⟩ := h
      cases h
      exact ⟨rfl, rfl, rfl, owner, related, relation, howner, hrelated, hrelation, htarget,
        Or.inr ⟨rfl, rfl, rfl, hforeign⟩⟩
  · simp only [ne_eq, htarget, not_false_eq_true, if_true] at h
    cases h

theorem build_eq_ok {c : Catalogue} {registry : Registry} {ps : Parameters}
    {left member right : String} {on : Option Expr} {l : Link}
    (described : ∀ entry ∈ ps.entries, c.Describes entry.2)
    (h : build registry ps left member right on = .ok l) :
    l.left = left ∧ l.right = right ∧ l.member = member ∧
      ∃ owner related relation, l.Follows ps owner related relation := by
  obtain ⟨rfl, rfl, rfl, owner, related, relation, howner, hrelated, hrelation, htarget, horigin⟩ :=
    build_cases h
  refine ⟨rfl, rfl, rfl, owner, related, relation, howner, hrelated, hrelation, htarget, ?_⟩
  rcases horigin with ⟨e, -, hcondition, hkeys⟩ | ⟨-, -, hprimary, hforeign⟩
  · have hcolumns := Scope.hasColumn_compile described hcondition
    obtain ⟨hprimary, hforeign⟩ := keyPair_eq_ok hkeys
    obtain ⟨dl, hdl, hprimary⟩ := hcolumns _ hprimary
    obtain ⟨dr, hdr, hforeign⟩ := hcolumns _ hforeign
    rw [show ps.find? l.left = some dl from hdl] at howner
    rw [show ps.find? l.right = some dr from hdr] at hrelated
    cases howner
    cases hrelated
    exact .present hprimary hforeign
  · exact .declared hprimary hforeign

end Link
end RowGraph
