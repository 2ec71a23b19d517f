import RowGraph.Proofs.Compilation.Columns
import RowGraph.Proofs.Compilation.Language

/-!
The normal form of compiled conditions.

`NormalNode` says, for each kind of node, what a node of a compiled condition looks like: which
columns it may read, what stands on the two sides of a comparison, what is converted, and how
integers are written.  Every node of every compiled condition is of this form.  Orientation gives the
sides of a comparison, and unification the width of its integers.
-/

namespace RowGraph

mutual
/-- The condition and all of its parts, from the outside in. -/
def Condition.nodes : Condition → List Condition
  | .binary op lhs rhs => .binary op lhs rhs :: (lhs.nodes ++ rhs.nodes)
  | .call f args => .call f args :: Condition.nodesOf args
  | .constant v => [.constant v]
  | .member param column => [.member param column]
  | .parameter param key => [.parameter param key]

def Condition.nodesOf : List Condition → List Condition
  | [] => []
  | c :: rest => c.nodes ++ Condition.nodesOf rest
end

namespace Scope

/-- The operand reads the column, which a parameter of that name has. -/
def Reads (s : Scope) (c : Condition) (param : String) (column : Column) : Prop :=
  c.column? = some (param, column.name) ∧
    ∃ d, s.params.find? param = some d ∧ column ∈ d.columns

/-- The nodes of compiled conditions. -/
inductive NormalNode (s : Scope) : Condition → Prop
  | connective {op : Operator} {lhs rhs : Condition} (hop : op.isLogical = true) :
    s.NormalNode (.binary op lhs rhs)
  /-- An integer that is compared with an integer column is one of 64 bits. -/
  | withConstant {op : Operator} {lhs : Condition} {v : Value} {param : String} {column : Column}
    (hop : op.isComparison = true) (hlhs : s.Reads lhs param column) (hv : v.isList = false)
    (hinteger : column.ty.isInteger = true → v.toInt?.isSome = true → ∃ n, v = .i64 n) :
    s.NormalNode (.binary op lhs (.constant v))
  | ofColumns {op : Operator} {lhs rhs : Condition} {param : String} {column column' : Column}
    (hop : op.isComparison = true) (hlhs : s.Reads lhs s.left column)
    (hrhs : s.Reads rhs param column') (hne : param ≠ s.left)
    (hjoined : ∀ right, s.right = some right → param = right) :
    s.NormalNode (.binary op lhs rhs)
  | convert {c : Condition} {param : String} {column : Column}
    (hc : c.IsColumn param column.name) (hreads : s.Reads c param column)
    (hty : column.ty = .i16 ∨ column.ty = .i32) : s.NormalNode (.convert .i64 c)
  /-- Integers that an integer column is tested for are of 64 bits, unless they are listed with
  something else. -/
  | contains {items : List Value} {item : Condition} {param : String} {column : Column}
    (hflat : ∀ v ∈ items, v.isList = false) (hitem : s.Reads item param column)
    (hintegers : column.ty.isInteger = true → (∀ v ∈ items, v.toInt?.isSome = true) →
      ∀ v ∈ items, ∃ n, v = .i64 n) : s.NormalNode (.contains (.constant (.list items)) item)
  | constant (v : Value) : s.NormalNode (.constant v)
  | member {param : String} {d : Descriptor} {column : Column}
    (hd : s.params.find? param = some d) (hcolumn : column ∈ d.columns) :
    s.NormalNode (.member param column.name)
  | parameter {param : String} {d : Descriptor} {key : Column}
    (hd : s.params.find? param = some d) (hkey : key ∈ d.columns) (hflagged : key.isKey = true)
    (hname : key.name = d.primaryKey) : s.NormalNode (.parameter param key.name)

/-- All nodes of the condition are those of a compiled one. -/
def Normal (s : Scope) (c : Condition) : Prop :=
  ∀ node ∈ c.nodes, s.NormalNode node

variable {s : Scope}

theorem normal_binary {op : Operator} {lhs rhs : Condition} (h : s.NormalNode (.binary op lhs rhs))
    (hlhs : s.Normal lhs) (hrhs : s.Normal rhs) : s.Normal (.binary op lhs rhs) :=
  List.forall_mem_cons.mpr ⟨h, List.forall_mem_append.mpr ⟨hlhs, hrhs⟩⟩

theorem normal_convert {c : Condition} (h : s.NormalNode (.convert .i64 c)) (hc : s.Normal c) :
    s.Normal (.convert .i64 c) :=
  List.forall_mem_cons.mpr ⟨h, List.forall_mem_append.mpr ⟨hc, nofun⟩⟩

theorem normal_constant (v : Value) : s.Normal (.constant v) :=
  List.forall_mem_singleton.mpr (.constant v)

theorem normal_contains {list item : Condition} (h : s.NormalNode (.contains list item))
    (hlist : s.Normal list) (hitem : s.Normal item) : s.Normal (.contains list item) :=
  List.forall_mem_cons.mpr ⟨h, List.forall_mem_append.mpr
    ⟨hlist, List.forall_mem_append.mpr ⟨hitem, nofun⟩⟩⟩

/-! ## Operands that read a column -/

/-- The operand is a column of the parameter and knows its type. -/
structure ReadsAs (s : Scope) (o : Operand) (param : String) (column : Column) : Prop where
  isColumn : o.condition.IsColumn param column.name
  ty_eq : o.ty = some column.ty
  reads : s.Reads o.condition param column
  normal : s.Normal o.condition

variable {c : Catalogue}

/-- A member reads a column of its parameter.  The type that the compiler goes by is that of this
column and not of one whose name differs in case. -/
theorem exists_readsAs (described : ∀ entry ∈ s.params.entries, c.Describes entry.2)
    (distinct : ∀ entry ∈ s.params.entries, entry.2.NamesDistinct) {m : Member} {o : Operand}
    (h : s.memberOperand m = .ok o) : ∃ param column, s.ReadsAs o param column := by
  obtain ⟨param, d, -, hd, -, hfolds⟩ := memberOperand_eq_ok_iff.mp h
  have hentry := Keyed.mem_of_find? hd
  have hnames := distinct _ hentry
  have hcolumn : ∀ (path : List String) (name : String), d.columnAt? path = some name →
      ∃ column', s.ReadsAs (column param d name) param column' := by
    intro path name hpath
    obtain ⟨found, hfound, rfl⟩ :=
      List.mem_map.mp (Descriptor.mem_names_of_columnAt? (described _ hentry) hpath)
    refine ⟨found, .member, ?_, ⟨rfl, d, hd, hfound⟩,
      List.forall_mem_singleton.mpr (.member hd hfound)⟩
    show (d.column? found.name).map (·.ty) = some found.ty
    rw [d.column?_eq_some hnames hfound rfl]
    rfl
  generalize m.path = path at hfolds
  cases hfolds with
  | key =>
    obtain ⟨registered, hresolve⟩ := described _ hentry
    have hkey := Descriptor.keyColumn_mem (Catalogue.hasKey_resolve hresolve)
    have hname := Catalogue.name_of_isKey hresolve hkey d.isKey_keyColumn
    exact ⟨param, d.keyColumn, .parameter, rfl, ⟨rfl, d, hd, hkey⟩,
      List.forall_mem_singleton.mpr (.parameter hd hkey d.isKey_keyColumn hname)⟩
  | @stored field name hstorage => exact ⟨param, hcolumn [field] name hstorage⟩
  | @targetKey navigation key reference target hreference htarget hkey =>
    refine ⟨param, hcolumn [navigation, key] reference.column ?_⟩
    rw [Descriptor.columnAt?, hreference]
    rfl

/-- Widened or not, the operand reads its column; it is converted only if that column is narrow. -/
theorem ReadsAs.reads_widened {o : Operand} {param : String} {column : Column}
    (h : s.ReadsAs o param column) :
    s.Reads o.widened param column ∧ s.Normal o.widened := by
  rw [Operand.widened, h.ty_eq]
  split
  next hnarrow =>
    have hty : column.ty = .i16 ∨ column.ty = .i32 := by
      revert hnarrow
      cases column.ty <;> simp [ColumnType.isNarrow]
    exact ⟨h.reads, normal_convert (.convert h.isColumn h.reads hty) h.normal⟩
  next => exact ⟨h.reads, h.normal⟩

theorem ReadsAs.isInteger_eq {o : Operand} {param : String} {column : Column}
    (h : s.ReadsAs o param column) : o.isInteger = column.ty.isInteger := by
  rw [Operand.isInteger, h.ty_eq]
  rfl

theorem ReadsAs.root?_eq {o : Operand} {param : String} {column : Column}
    (h : s.ReadsAs o param column) : o.condition.root? = some param := by
  rw [Condition.root?, h.reads.1]
  rfl

/-- Operands are columns and single constants. -/
theorem readsAs_or_constant (described : ∀ entry ∈ s.params.entries, c.Describes entry.2)
    (distinct : ∀ entry ∈ s.params.entries, entry.2.NamesDistinct) {e : Expr} {o : Operand}
    (h : s.operand e = .ok o) :
    (∃ param column, s.ReadsAs o param column) ∨ ∃ v, v.isList = false ∧ o = ⟨.constant v, none⟩ := by
  rcases operand_eq_ok h with ⟨m, rfl, hm⟩ | ⟨v, rfl, rfl⟩
  · exact Or.inl (exists_readsAs described distinct hm)
  · exact Or.inr ⟨.scalar v, rfl, rfl⟩

/-! ## Leaves -/

theorem normal_withConstant {op : Operator} (hop : op.isComparison = true) {o : Operand}
    {param : String} {column : Column} (ho : s.ReadsAs o param column) {v : Value}
    (hv : v.isList = false) {l r : Condition}
    (hunify : o.unify ⟨.constant v, none⟩ = .ok (l, r)) : s.Normal (.binary op l r) := by
  obtain ⟨hreads, hnormal⟩ := ho.reads_widened
  rcases o.unify_cases ⟨.constant v, none⟩ with ⟨hint, -, k, h⟩ | ⟨hint, h⟩
  · cases hunify.symm.trans h
    exact normal_binary (.withConstant hop hreads rfl fun _ _ => ⟨k, rfl⟩) hnormal
      (normal_constant _)
  · -- The constant stays as it is only where it is no integer or the column holds none.
    have hinteger : column.ty.isInteger = true → v.toInt?.isSome = true → ∃ n, v = .i64 n := by
      intro hcolumn hsome
      rw [ho.isInteger_eq] at hint
      have hconst : Operand.integer? ⟨.constant v, none⟩ = some v :=
        Operand.integer?_eq_some_iff.mpr ⟨rfl, hsome⟩
      rw [hint hcolumn] at hconst
      cases hconst
    rcases h with h | h
    · cases hunify.symm.trans h
      exact normal_binary (.withConstant hop hreads hv hinteger) hnormal (normal_constant v)
    · cases hunify.symm.trans h
      exact normal_binary (.withConstant hop ho.reads hv hinteger) ho.normal (normal_constant v)

theorem normal_ofColumns {op : Operator} (hop : op.isComparison = true) {o o' : Operand}
    {param : String} {column column' : Column} (ho : s.ReadsAs o s.left column)
    (ho' : s.ReadsAs o' param column') (hne : param ≠ s.left)
    (hjoined : ∀ right, s.right = some right → param = right) {l r : Condition}
    (hunify : o.unify o' = .ok (l, r)) : s.Normal (.binary op l r) := by
  obtain ⟨hreads, hnormal⟩ := ho.reads_widened
  obtain ⟨hreads', hnormal'⟩ := ho'.reads_widened
  -- The second operand is a column, so no constant is converted.
  rcases o.unify_cases o' with ⟨-, hconst, -, -⟩ | ⟨-, h | h⟩
  · obtain ⟨v, hv⟩ := Option.isSome_iff_exists.mp hconst
    have hroot := ho'.root?_eq
    rw [(Operand.integer?_eq_some_iff.mp hv).1] at hroot
    cases hroot
  · cases hunify.symm.trans h
    exact normal_binary (.ofColumns hop hreads hreads' hne hjoined) hnormal hnormal'
  · cases hunify.symm.trans h
    exact normal_binary (.ofColumns hop ho.reads ho'.reads hne hjoined) ho.normal ho'.normal

theorem normal_ordered (described : ∀ entry ∈ s.params.entries, c.Describes entry.2)
    (distinct : ∀ entry ∈ s.params.entries, entry.2.NamesDistinct) {op : Operator}
    (hop : op.isComparison = true) {e e' : Expr} {o o' : Operand} (he : s.operand e = .ok o)
    (he' : s.operand e' = .ok o') {condition : Condition} (h : s.Ordered op o o' condition) :
    s.Normal condition := by
  obtain ⟨horiented, l, r, hunify, rfl⟩ := h
  have hfirst : ∃ param column, s.ReadsAs o param column := by
    rcases readsAs_or_constant described distinct he with hreads | ⟨v, -, rfl⟩
    · exact hreads
    · cases horiented with
      | constant hroot hsecond hjoined => cases hroot
      | columns hroot hsecond hne hjoined => cases hroot
  obtain ⟨param, column, ho⟩ := hfirst
  rcases readsAs_or_constant described distinct he' with ⟨param', column', ho'⟩ | ⟨v, hv, rfl⟩
  · cases horiented with
    | constant hroot hsecond hjoined =>
      rw [ho'.root?_eq] at hsecond
      cases hsecond
    | columns hroot hsecond hne hjoined =>
      obtain rfl : param = s.left := Option.some_inj.mp (ho.root?_eq.symm.trans hroot)
      obtain rfl := Option.some_inj.mp (ho'.root?_eq.symm.trans hsecond)
      exact normal_ofColumns hop ho ho' hne hjoined hunify
  · exact normal_withConstant hop ho hv hunify

theorem normal_tested (described : ∀ entry ∈ s.params.entries, c.Describes entry.2)
    (distinct : ∀ entry ∈ s.params.entries, entry.2.NamesDistinct) {m : Member}
    {items : List Value} {condition : Condition} (h : s.Tested m items condition) :
    s.Normal condition := by
  obtain ⟨hflat, o, hm, hamong⟩ := h
  obtain ⟨param, column, ho⟩ := exists_readsAs described distinct hm
  obtain ⟨hreads, hnormal⟩ := ho.reads_widened
  rcases among_cases o items with ⟨-, -, items', hwide, h⟩ | ⟨hnot, h⟩
  · cases hamong.symm.trans h
    refine normal_contains (.contains (fun v hv => ?_) hreads fun _ _ => hwide) (normal_constant _)
      hnormal
    obtain ⟨n, rfl⟩ := hwide v hv
    rfl
  · cases hamong.symm.trans h
    refine normal_contains (.contains hflat ho.reads fun hint hall => ?_) (normal_constant _)
      ho.normal
    rw [ho.isInteger_eq] at hnot
    exact absurd ⟨hint, hall⟩ hnot

/-! ## Conditions -/

/-- Every node of a compiled condition is in normal form. -/
theorem normal_compile {c : Catalogue} {s : Scope}
    (described : ∀ entry ∈ s.params.entries, c.Describes entry.2)
    (distinct : ∀ entry ∈ s.params.entries, entry.2.NamesDistinct) {e : Expr}
    {condition : Condition} (h : s.compile e = .ok condition) :
    ∀ node ∈ condition.nodes, s.NormalNode node := by
  have hcompiles := compile_eq_ok_iff.mp h
  clear h
  induction hcompiles with
  | connective hop _ _ ihl ihr => exact normal_binary (.connective hop) ihl ihr
  | comparison hop hlhs hrhs hc =>
    rcases hc with hc | hc
    · exact normal_ordered described distinct hop hlhs hrhs hc
    · rw [← Operator.isComparison_converse] at hop
      exact normal_ordered described distinct hop hrhs hlhs hc
  | isIn h => exact normal_tested described distinct h
  | inList h => exact normal_tested described distinct h

theorem normal_compile_knownAuthor :
    (∀ entry ∈ booksAndAuthors.entries, shelves.Describes entry.2 ∧ entry.2.NamesDistinct) ∧
    ∃ condition, compile ⟨.ofCatalogue shelves, booksAndAuthors, "x", none⟩ knownAuthor =
      .ok condition ∧
      ∀ node ∈ condition.nodes,
        NormalNode ⟨.ofCatalogue shelves, booksAndAuthors, "x", none⟩ node := by
  have hentries : ∀ entry ∈ booksAndAuthors.entries,
      shelves.Describes entry.2 ∧ entry.2.NamesDistinct := by
    intro entry hentry
    simp only [booksAndAuthors, List.mem_cons, List.not_mem_nil, or_false] at hentry
    rcases hentry with rfl | rfl
    · exact ⟨⟨[], by cbv⟩, by decide +kernel⟩
    · exact ⟨⟨[], by cbv⟩, by decide +kernel⟩
  have hcompile : compile ⟨.ofCatalogue shelves, booksAndAuthors, "x", none⟩ knownAuthor =
      .ok (.binary .or (.binary .eq (.member "x" "author_id") (.parameter "x1" "id"))
        (.contains (.constant (.list [.i64 1])) (.convert .i64 (.member "x" "id")))) := by cbv
  exact ⟨hentries, _, hcompile, normal_compile (fun entry hentry => (hentries entry hentry).1)
    (fun entry hentry => (hentries entry hentry).2) hcompile⟩

end Scope
end RowGraph
