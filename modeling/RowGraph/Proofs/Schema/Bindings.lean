import RowGraph.Proofs.Lists
import RowGraph.Proofs.Schema.Columns

/-!
What the columns of a descriptor refer to.

A column that a field of the model is stored in refers to the primary key of another model, if it
refers to anything; a reference always gives its column something to refer to.  Any other column
stands there because a collection of another model asks for it.  Of all the collections that ask for
a column of the name, the first one, in the order in which the models are known, says what the
column refers to.
-/

namespace RowGraph

/-! ## Columns by exact name -/

def columnNamed? (columns : List Column) (name : String) : Option Column :=
  columns.find? (·.name == name)

theorem columnNamed?_cons (column : Column) (rest : List Column) (name : String) :
    columnNamed? (column :: rest) name =
      if column.name = name then some column else columnNamed? rest name := by
  rw [columnNamed?, List.find?_cons]
  by_cases h : column.name = name
  · rw [if_pos h, beq_iff_eq.mpr h]
  · rw [if_neg h, beq_eq_false_iff_ne.mpr h]
    rfl

theorem columnNamed?_concat (columns : List Column) (column : Column) (name : String) :
    columnNamed? (columns ++ [column]) name =
      (columnNamed? columns name).or (if column.name = name then some column else none) := by
  rw [columnNamed?, List.find?_append, List.find?_singleton, columnNamed?]
  simp only [beq_iff_eq]

theorem columnNamed?_eq_none {columns : List Column} {name : String} :
    columnNamed? columns name = none ↔ ¬columns.any (·.name == name) = true := by
  rw [columnNamed?, List.find?_eq_none, List.any_eq_true]
  simp

theorem exists_columnNamed? {columns : List Column} {name : String} :
    (∃ column, columnNamed? columns name = some column) ↔ name ∈ columns.map Column.name := by
  rw [← Option.isSome_iff_exists, columnNamed?, List.find?_isSome, List.mem_map]
  simp

theorem columnNamed?_of_mem {columns : List Column} (distinct : (columns.map Column.name).Nodup)
    {column : Column} (h : column ∈ columns) : columnNamed? columns column.name = some column :=
  find?_of_nodup_map distinct h

/-- A column that a reference uses, bound if it was not, or the one that it adds. -/
def columnReferring (name : String) (b : Binding) (ty : ColumnType) : Option Column → Column
  | some column => { column with binding := column.binding <|> some b }
  | none => ⟨name, none, ty, some b, false⟩

namespace Catalogue

variable {c : Catalogue}

/-! ## Columns of fields -/

/-- What the column refers to, if anything, is the primary key of a model. -/
def BoundByKey (c : Catalogue) (column : Column) : Prop :=
  ∀ b, column.binding = some b → c.bindingTo b.model = .ok b

theorem keyOf_eq_ok {target : String} {b : Binding} {ty : ColumnType} :
    c.keyOf target = .ok (b, ty) ↔ ∃ key, (c.decl target).keyColumn? = some (key, ty) ∧
      b = ⟨target, (c.decl target).table, key⟩ := by
  rw [keyOf]
  cases (c.decl target).keyColumn? with
  | none => simp
  | some key => simp [Prod.ext_iff, eq_comm, and_comm]

theorem bindingTo_eq_ok {target : String} {b : Binding} :
    c.bindingTo target = .ok b ↔ ∃ key ty, (c.decl target).keyColumn? = some (key, ty) ∧
      b = ⟨target, (c.decl target).table, key⟩ := by
  rw [bindingTo, keyOf]
  cases (c.decl target).keyColumn? with
  | none => simp [Except.map]
  | some key => simp [Except.map, Prod.ext_iff, eq_comm]

theorem boundByKey_of_keyOf {target : String} {b : Binding} {ty : ColumnType}
    (h : c.keyOf target = .ok (b, ty)) : c.bindingTo b.model = .ok b := by
  obtain ⟨key, hkey, rfl⟩ := keyOf_eq_ok.mp h
  exact bindingTo_eq_ok.mpr ⟨key, ty, hkey, rfl⟩

theorem boundByKey_of_bindingOf? {references : Option String} {binding : Option Binding}
    (h : c.bindingOf? references = .ok binding) {b : Binding} (hb : binding = some b) :
    c.bindingTo b.model = .ok b := by
  cases references with
  | none =>
    cases h
    cases hb
  | some target =>
    subst hb
    rw [bindingOf?] at h
    cases hto : c.bindingTo target with
    | error e =>
      rw [hto] at h
      cases h
    | ok found =>
      rw [hto] at h
      cases h
      obtain ⟨key, ty, hkey, rfl⟩ := bindingTo_eq_ok.mp hto
      exact hto

theorem boundByKey_fieldColumns {decl : ModelDecl} {primaryKey : String} {columns : List Column}
    (h : c.fieldColumns decl primaryKey = .ok columns) :
    ∀ column ∈ columns, c.BoundByKey column := by
  refine Outcome.foldlM_induction (P := fun columns => ∀ column ∈ columns, c.BoundByKey column)
    ?_ (by simp) h
  intro f _ before after hbefore hstep
  rw [addField.eq_def] at hstep
  split at hstep
  next =>
    dsimp only at hstep
    split at hstep
    next => cases hstep
    next =>
      rw [Outcome.bind_eq_ok] at hstep
      obtain ⟨binding, hbinding, hstep⟩ := hstep
      cases hstep
      refine List.forall_mem_append.mpr ⟨hbefore, ?_⟩
      intro column hcolumn b hb
      rw [List.mem_singleton] at hcolumn
      subst hcolumn
      exact boundByKey_of_bindingOf? hbinding hb
  next =>
    cases hstep
    exact hbefore

/-! ## Columns of references -/

theorem columnNamed?_bind_of_ne {name other : String} (h : name ≠ other) (b : Binding)
    (columns : List Column) :
    columnNamed? (bind name b columns) other = columnNamed? columns other := by
  induction columns with
  | nil => rfl
  | cons column rest ih =>
    rw [bind]
    split
    next hname =>
      have hne : column.name ≠ other := fun he => h (hname.symm.trans he)
      rw [columnNamed?_cons, columnNamed?_cons, if_neg hne, if_neg hne]
    next => rw [columnNamed?_cons, columnNamed?_cons, ih]

theorem columnNamed?_bind_self {name : String} {columns : List Column} {column : Column}
    (h : columnNamed? columns name = some column) (b : Binding) (ty : ColumnType) :
    columnNamed? (bind name b columns) name = some (columnReferring name b ty (some column)) := by
  induction columns with
  | nil => cases h
  | cons first rest ih =>
    rw [columnNamed?_cons] at h
    rw [bind]
    split at h
    next hname =>
      cases h
      rw [if_pos hname, columnNamed?_cons, if_pos hname]
      rfl
    next hname =>
      rw [if_neg hname, columnNamed?_cons, if_neg hname]
      exact ih h

/-- A reference makes a column of its name refer to something, and leaves the others alone. -/
theorem columnNamed?_addForeignKey (name other : String) (b : Binding) (ty : ColumnType)
    (columns : List Column) :
    columnNamed? (addForeignKey name b ty columns) other =
      if name = other then some (columnReferring name b ty (columnNamed? columns name))
      else columnNamed? columns other := by
  rw [addForeignKey]
  cases hfind : columnNamed? columns name with
  | some column =>
    have hany : columns.any (·.name == name) = true := by
      by_contra hnone
      rw [columnNamed?_eq_none.mpr hnone] at hfind
      cases hfind
    rw [if_pos hany]
    split
    next hname => rw [← hname, columnNamed?_bind_self hfind b ty]
    next hname => exact columnNamed?_bind_of_ne hname b columns
  | none =>
    rw [if_neg (columnNamed?_eq_none.mp hfind), columnNamed?_concat]
    split
    next hname =>
      rw [← hname, hfind]
      rfl
    next => exact Option.or_none

theorem isSome_binding_columnReferring (name : String) (b : Binding) (ty : ColumnType)
    (found : Option Column) : (columnReferring name b ty found).binding.isSome = true := by
  cases found with
  | none => rfl
  | some column =>
    rw [columnReferring]
    cases column.binding with
    | none => rfl
    | some b' => rfl

theorem boundByKey_columnReferring {name : String} {b : Binding} {ty : ColumnType}
    {found : Option Column} (hb : c.bindingTo b.model = .ok b)
    (h : ∀ column, found = some column → c.BoundByKey column) :
    c.BoundByKey (columnReferring name b ty found) := by
  intro b' hb'
  cases found with
  | none =>
    cases hb'
    exact hb
  | some column =>
    cases hbinding : column.binding with
    | none =>
      rw [columnReferring, hbinding] at hb'
      cases hb'
      exact hb
    | some own =>
      rw [columnReferring, hbinding] at hb'
      cases hb'
      exact h column rfl b' hbinding

/-- References keep to primary keys, and each of them is bound in the end. -/
theorem bound_withReferences {decl : ModelDecl} {declared columns : List Column}
    {references : List Reference} (h : c.withReferences decl declared = .ok (columns, references))
    (hdeclared : ∀ name column, columnNamed? declared name = some column → c.BoundByKey column) :
    (∀ name column, columnNamed? columns name = some column → c.BoundByKey column) ∧
      ∀ r ∈ references, ∃ column, columnNamed? columns r.column = some column ∧
        column.binding.isSome = true := by
  refine Outcome.foldlM_induction (P := fun found =>
    (∀ name column, columnNamed? found.1 name = some column → c.BoundByKey column) ∧
      ∀ r ∈ found.2, ∃ column, columnNamed? found.1 r.column = some column ∧
        column.binding.isSome = true) ?_ ⟨hdeclared, by simp⟩ h
  rintro f - before after ⟨hbound, hrefs⟩ hstep
  rcases addReference_eq_ok hstep with ⟨-, rfl⟩ | ⟨r, b, ty, -, hkey, rfl⟩
  · exact ⟨hbound, hrefs⟩
  · have hnamed := fun name => columnNamed?_addForeignKey r.column name b ty before.1
    have hsome := isSome_binding_columnReferring r.column b ty (columnNamed? before.1 r.column)
    refine ⟨?_, List.forall_mem_append.mpr ⟨?_, ?_⟩⟩
    · intro name column hcolumn
      rw [hnamed] at hcolumn
      split at hcolumn
      next =>
        cases hcolumn
        exact boundByKey_columnReferring (boundByKey_of_keyOf hkey) (hbound r.column)
      next => exact hbound name column hcolumn
    · intro r' hr'
      rw [hnamed]
      split
      next => exact ⟨_, rfl, hsome⟩
      next => exact hrefs r' hr'
    · intro r' hr'
      rw [List.mem_singleton] at hr'
      subst hr'
      rw [hnamed, if_pos rfl]
      exact ⟨_, rfl, hsome⟩

end Catalogue

/-! ## Columns that other models ask for -/

/-- The column of the given name that a collection asks for, with the keys of its owner. -/
def FieldDecl.askedColumn? (owner : ModelDecl) (ownerKey : String) (ty : ColumnType)
    (model name : String) (f : FieldDecl) : Option Column :=
  match f.kind with
  | .hasMany target (some foreignKey) key =>
    if target = model ∧ foreignKey = name then
      some ⟨name, none, ty, some ⟨owner.model, owner.table, key.getD ownerKey⟩, false⟩
    else none
  | _ => none

/-- The column of the given name that the first of a model's collections to do so asks for. -/
def ModelDecl.askedColumn? (model name : String) (owner : ModelDecl) : Option Column :=
  owner.keyColumn?.bind fun key =>
    owner.fields.findSome? (FieldDecl.askedColumn? owner key.1 key.2 model name)

theorem FieldDecl.askedColumn?_eq_some {owner : ModelDecl} {ownerKey : String} {ty : ColumnType}
    {model name : String} {f : FieldDecl} {column : Column} :
    f.askedColumn? owner ownerKey ty model name = some column ↔
      ∃ key, f.kind = .hasMany model (some name) key ∧
        column = ⟨name, none, ty, some ⟨owner.model, owner.table, key.getD ownerKey⟩, false⟩ := by
  rw [FieldDecl.askedColumn?.eq_def]
  cases f.kind with
  | column _ _ _ => simp
  | belongsTo _ _ => simp
  | hasMany target foreignKey key =>
    cases foreignKey with
    | none => simp
    | some foreignKey =>
      dsimp only
      split
      next h =>
        obtain ⟨rfl, rfl⟩ := h
        simp [eq_comm]
      next h =>
        refine iff_of_false nofun ?_
        rintro ⟨key', hkind, -⟩
        cases hkind
        exact h ⟨rfl, rfl⟩

theorem FieldDecl.askedColumn?_eq_none {owner : ModelDecl} {ownerKey : String} {ty : ColumnType}
    {model name : String} {f : FieldDecl} : f.askedColumn? owner ownerKey ty model name = none ↔
      ∀ key, f.kind ≠ .hasMany model (some name) key := by
  rw [Option.eq_none_iff_forall_ne_some]
  constructor
  · intro h key hkind
    exact h _ (askedColumn?_eq_some.mpr ⟨key, hkind, rfl⟩)
  · intro h column hcolumn
    obtain ⟨key, hkind, -⟩ := askedColumn?_eq_some.mp hcolumn
    exact h key hkind

/-- The column that a model asks for is that of the first of its collections to name it. -/
theorem ModelDecl.askedColumn?_eq_some {model name : String} {owner : ModelDecl} {column : Column} :
    owner.askedColumn? model name = some column ↔ ∃ ownerKey ty before g after key,
      owner.keyColumn? = some (ownerKey, ty) ∧ owner.fields = before ++ g :: after ∧
      (∀ f ∈ before, ∀ key, f.kind ≠ .hasMany model (some name) key) ∧
      g.kind = .hasMany model (some name) key ∧
      column = ⟨name, none, ty, some ⟨owner.model, owner.table, key.getD ownerKey⟩, false⟩ := by
  rw [askedColumn?, Option.bind_eq_some_iff]
  simp only [List.findSome?_eq_some_iff, FieldDecl.askedColumn?_eq_some,
    FieldDecl.askedColumn?_eq_none, Prod.exists]
  constructor
  · rintro ⟨ownerKey, ty, hkey, before, g, after, hfields, ⟨key, hkind, hcolumn⟩, hbefore⟩
    exact ⟨ownerKey, ty, before, g, after, key, hkey, hfields, hbefore, hkind, hcolumn⟩
  · rintro ⟨ownerKey, ty, before, g, after, key, hkey, hfields, hbefore, hkind, hcolumn⟩
    exact ⟨ownerKey, ty, hkey, before, g, after, hfields, ⟨key, hkind, hcolumn⟩, hbefore⟩

namespace Catalogue

variable {c : Catalogue}

theorem columnNamed?_addIncoming (model : String) (owner : ModelDecl) (ownerKey : String)
    (ty : ColumnType) (name : String) (columns : List Column) (f : FieldDecl) :
    columnNamed? (addIncoming model owner ownerKey ty columns f) name =
      (columnNamed? columns name).or (f.askedColumn? owner ownerKey ty model name) := by
  rw [addIncoming.eq_def, FieldDecl.askedColumn?.eq_def]
  cases hkind : f.kind with
  | column _ _ _ => exact Option.or_none.symm
  | belongsTo _ _ => exact Option.or_none.symm
  | hasMany target foreignKey key =>
    cases foreignKey with
    | none => exact Option.or_none.symm
    | some foreignKey =>
      by_cases htarget : target = model
      · by_cases hany : columns.any (·.name == foreignKey) = true
        · simp only [htarget, hany, ne_eq, not_true_eq_false, decide_false, Bool.false_or, if_true,
            true_and]
          split
          next hname =>
            obtain ⟨column, hcolumn⟩ := Option.ne_none_iff_exists'.mp
              (mt columnNamed?_eq_none.mp (not_not.mpr (hname ▸ hany)))
            rw [hcolumn, Option.some_or]
          next => exact Option.or_none.symm
        · simp only [htarget, hany, ne_eq, not_true_eq_false, decide_false, Bool.false_or,
            Bool.false_eq_true, if_false, true_and]
          rw [columnNamed?_concat]
          split
          next hname =>
            have hname : foreignKey = name := hname
            rw [hname]
          next hname => rfl
      · simp only [ne_eq, htarget, not_false_eq_true, decide_true, Bool.true_or, if_true, false_and,
          if_false, Option.or_none]

theorem columnNamed?_addIncomingFrom (model name : String) (columns : List Column)
    (owner : ModelDecl) :
    columnNamed? (addIncomingFrom model columns owner) name =
      (columnNamed? columns name).or (owner.askedColumn? model name) := by
  rw [addIncomingFrom, ModelDecl.askedColumn?]
  cases owner.keyColumn? with
  | none => exact Option.or_none.symm
  | some key =>
    exact foldl_eq_or_findSome? (columnNamed? · name)
      (columnNamed?_addIncoming model owner key.1 key.2 name) owner.fields columns

theorem columnNamed?_withIncoming (c : Catalogue) (model name : String) (known : List String)
    (columns : List Column) :
    columnNamed? (c.withIncoming model known columns) name =
      (columnNamed? columns name).or
        ((known.map c.decl).findSome? (ModelDecl.askedColumn? model name)) :=
  foldl_eq_or_findSome? (columnNamed? · name) (columnNamed?_addIncomingFrom model name)
    (known.map c.decl) columns

/-! ## Columns of a descriptor -/

section Resolved

variable {registered : List String} {model : String} {d : Descriptor}

/-- The stages at which a descriptor comes by a column: what its fields give it, and otherwise what
the known models ask for. -/
theorem columnNamed?_resolve (h : c.resolve registered model = .ok d) :
    ∃ columns, (∀ name, name ∈ columns.map Column.name ↔
        ∃ f ∈ (c.decl model).fields, f.columnName? = some name) ∧
      (∀ name column, columnNamed? columns name = some column → c.BoundByKey column) ∧
      (∀ r ∈ d.references, ∃ column, columnNamed? columns r.column = some column ∧
        column.binding.isSome = true) ∧
      ∀ name, columnNamed? d.columns name = (columnNamed? columns name).or
        (((c.known registered model).map c.decl).findSome?
          (ModelDecl.askedColumn? model name)) := by
  obtain ⟨-, -, -, -, declared, columns, hdeclared, hreferences, hcolumns⟩ := resolve_eq_ok h
  have hkeys := boundByKey_fieldColumns hdeclared
  obtain ⟨hbound, hrefs⟩ := bound_withReferences hreferences
    fun name column hcolumn => hkeys column (List.mem_of_find?_eq_some hcolumn)
  refine ⟨columns, fun name => mem_names_withReferences hdeclared hreferences, hbound, hrefs, ?_⟩
  intro name
  rw [hcolumns, columnNamed?_withIncoming]

/-- A reference of a descriptor has a column, and the column refers to something. -/
theorem exists_bound_of_reference (h : c.resolve registered model = .ok d) {r : Reference}
    (hr : r ∈ d.references) :
    ∃ column ∈ d.columns, column.name = r.column ∧ column.binding.isSome = true := by
  obtain ⟨columns, -, -, hrefs, hnamed⟩ := columnNamed?_resolve h
  obtain ⟨column, hcolumn, hbound⟩ := hrefs r hr
  have hfound : columnNamed? d.columns r.column = some column := by
    rw [hnamed, hcolumn, Option.some_or]
  rw [columnNamed?] at hfound
  exact ⟨column, List.mem_of_find?_eq_some hfound, by simpa using List.find?_some hfound, hbound⟩

/-- Every column of a descriptor is that of a field, or else the first that a known model asks for
under its name. -/
theorem bound_cases (h : c.resolve registered model = .ok d) {column : Column}
    (hcolumn : column ∈ d.columns) :
    ((∃ f ∈ (c.decl model).fields, f.columnName? = some column.name) ∧ c.BoundByKey column) ∨
      (∀ f ∈ (c.decl model).fields, f.columnName? ≠ some column.name) ∧
      ((c.known registered model).map c.decl).findSome?
        (ModelDecl.askedColumn? model column.name) = some column := by
  obtain ⟨columns, hnames, hbound, -, hnamed⟩ := columnNamed?_resolve h
  have hfound := columnNamed?_of_mem (nodup_names_resolve h) hcolumn
  rw [hnamed] at hfound
  cases hfield : columnNamed? columns column.name with
  | some found =>
    rw [hfield, Option.some_or] at hfound
    cases hfound
    exact Or.inl ⟨(hnames _).mp (exists_columnNamed?.mp ⟨column, hfield⟩), hbound _ _ hfield⟩
  | none =>
    rw [hfield, Option.none_or] at hfound
    refine Or.inr ⟨fun f hf hname => ?_, hfound⟩
    obtain ⟨found, hsome⟩ := exists_columnNamed?.mpr ((hnames column.name).mpr ⟨f, hf, hname⟩)
    rw [hsome] at hfield
    cases hfield

end Resolved

end Catalogue
end RowGraph
