import RowGraph.Proofs.Compilation.Rules
import RowGraph.Proofs.Statement.LinkPairing
import RowGraph.Proofs.Statement.Scoping

/-!
What the condition of a join reads.

A join pairs the rows of two parameters, and its condition is to be evaluated over such a pair.  Its
comparisons see to that: they compile only where each of their columns is one of the two sides.  A
membership is compiled without a look at the sides, so it may test a member of a further parameter.
The main statement says exactly when the condition reads the two sides only: when every membership
tests a member of one of them.  It can then be evaluated over any pair of rows of the two tables.
-/

namespace RowGraph

/-! ## Rows of a table -/

/-- The row has a value for every column of the table, and in an integer column it is an integer of
any width or null. -/
def Descriptor.Fits (d : Descriptor) (row : Row) : Prop :=
  ∀ column ∈ d.columns, ∃ v, row.get? column.name = some v ∧
    (column.ty.isInteger = true → v.IntegerOrNull)

theorem Descriptor.Fits.supplies {d : Descriptor} {row : Row} (h : d.Fits row)
    (distinct : d.NamesDistinct) {name : String} (hname : name ∈ d.columns.map Column.name) :
    ∃ v, row.get? name = some v ∧
      (((d.column? name).map (·.ty)).any (·.isInteger) = true → v.IntegerOrNull) := by
  obtain ⟨column, hcolumn, rfl⟩ := List.mem_map.mp hname
  obtain ⟨v, hv, hint⟩ := h column hcolumn
  refine ⟨v, hv, ?_⟩
  rw [d.column?_eq_some distinct hcolumn rfl]
  exact hint

/-! ## Members that memberships test -/

def Expr.member? : Expr → Option Member
  | .member m => some m
  | _ => none

/-- The members that are tested for membership in a list. -/
def Expr.tested : Expr → List Member
  | .binary op lhs rhs =>
    if op.isLogical then lhs.tested ++ rhs.tested
    else if op = .in then lhs.member?.toList
    else []
  | .inList item _ => item.member?.toList
  | _ => []

namespace Scope

variable {s : Scope}

/-! ## Parameters that compiled parts read -/

/-- The columns of an operand are those of the parameter that it is rooted at. -/
theorem root?_of_mem_columns {e : Expr} {o : Operand} (h : s.operand e = .ok o)
    {place : String × String} (hplace : place ∈ o.condition.columns) :
    o.condition.root? = some place.1 := by
  rcases operand_eq_ok h with ⟨m, rfl, hm⟩ | ⟨v, rfl, rfl⟩
  · obtain ⟨param, d, column, -, -, -, hcolumn, -⟩ := memberOperand_eq_ok hm
    rw [hcolumn.columns_eq, List.mem_singleton] at hplace
    subst hplace
    rw [Condition.root?, hcolumn.column?_eq]
    rfl
  · exact absurd hplace List.not_mem_nil

/-- In a join, operands in order are rooted at the two sides or are constants. -/
theorem Oriented.joined {first second : Operand} (h : s.Oriented first second) {right : String}
    (hright : s.right = some right) {param : String}
    (hparam : first.condition.root? = some param ∨ second.condition.root? = some param) :
    param = s.left ∨ param = right := by
  cases h with
  | constant hfirst hsecond hjoined =>
    rw [hfirst, hsecond] at hparam
    rcases hparam with hparam | hparam
    · cases hparam
      exact hjoined right hright
    · cases hparam
  | columns hfirst hsecond hne hjoined =>
    rw [hfirst, hsecond] at hparam
    rcases hparam with hparam | hparam
    · cases hparam
      exact Or.inl rfl
    · cases hparam
      exact Or.inr (hjoined right hright)

theorem Ordered.columns_eq {op : Operator} {first second : Operand} {c : Condition}
    (h : s.Ordered op first second c) :
    c.columns = first.condition.columns ++ second.condition.columns := by
  obtain ⟨-, l, r, hunify, rfl⟩ := h
  obtain ⟨hl, hr⟩ := Operand.unify_eq_ok hunify
  rw [Condition.columns, hl.columns_eq, hr.columns_eq]

/-- The comparisons of a join read the two sides only. -/
theorem Ordered.joined {op : Operator} {lhs rhs : Expr} {first second : Operand} {c : Condition}
    (hlhs : s.operand lhs = .ok first) (hrhs : s.operand rhs = .ok second)
    (h : s.Ordered op first second c) {right : String} (hright : s.right = some right)
    {place : String × String} (hplace : place ∈ c.columns) :
    place.1 = s.left ∨ place.1 = right := by
  rw [h.columns_eq, List.mem_append] at hplace
  exact h.1.joined hright (hplace.imp (root?_of_mem_columns hlhs) (root?_of_mem_columns hrhs))

/-- A membership reads the column of its member and no other. -/
theorem Tested.columns_eq {m : Member} {items : List Value} {c : Condition}
    (h : s.Tested m items c) :
    ∃ param column, s.start? m = some param ∧ c.columns = [(param, column)] := by
  obtain ⟨-, o, ho, hc⟩ := h
  obtain ⟨items', item, hunified, -, rfl⟩ := among_eq_ok hc
  obtain ⟨param, d, column, hstart, -, -, hcolumn, -⟩ := memberOperand_eq_ok ho
  exact ⟨param, column, hstart, by rw [columns_contains hunified, hcolumn.columns_eq]⟩

/-- What a join condition reads of a further parameter, it reads to test a member. -/
theorem exists_tested_of_mem_columns {e : Expr} {c : Condition} (h : s.Compiles e c)
    {right : String} (hright : s.right = some right) {place : String × String}
    (hplace : place ∈ c.columns) :
    (place.1 = s.left ∨ place.1 = right) ∨ ∃ m ∈ e.tested, s.start? m = some place.1 := by
  have htest : ∀ {m : Member} {items : List Value} {c : Condition}, s.Tested m items c →
      place ∈ c.columns → s.start? m = some place.1 := by
    intro m items c h hplace
    obtain ⟨param, column, hstart, hcolumns⟩ := h.columns_eq
    rw [hcolumns, List.mem_singleton] at hplace
    rw [hplace, hstart]
  induction h with
  | connective hop hlhs hrhs ihl ihr =>
    rw [Expr.tested, if_pos hop]
    simp only [List.mem_append]
    rcases List.mem_append.mp hplace with hplace | hplace
    · rcases ihl hplace with hside | ⟨m, hm, hstart⟩
      · exact Or.inl hside
      · exact Or.inr ⟨m, Or.inl hm, hstart⟩
    · rcases ihr hplace with hside | ⟨m, hm, hstart⟩
      · exact Or.inl hside
      · exact Or.inr ⟨m, Or.inr hm, hstart⟩
  | comparison hop hlhs hrhs hc =>
    rcases hc with hc | hc
    · exact Or.inl (Ordered.joined hlhs hrhs hc hright hplace)
    · exact Or.inl (Ordered.joined hrhs hlhs hc hright hplace)
  | isIn h => exact Or.inr ⟨_, List.mem_singleton_self _, htest h hplace⟩
  | inList h => exact Or.inr ⟨_, List.mem_singleton_self _, htest h hplace⟩

/-- A member that is tested is read. -/
theorem exists_mem_columns_of_tested {e : Expr} {c : Condition} (h : s.Compiles e c) {m : Member}
    (hm : m ∈ e.tested) : ∃ place ∈ c.columns, s.start? m = some place.1 := by
  induction h with
  | @connective op lhs rhs l r hop hlhs hrhs ihl ihr =>
    rw [Expr.tested, if_pos hop, List.mem_append] at hm
    rw [Condition.columns]
    simp only [List.mem_append]
    rcases hm with hm | hm
    · obtain ⟨place, hplace, hstart⟩ := ihl hm
      exact ⟨place, Or.inl hplace, hstart⟩
    · obtain ⟨place, hplace, hstart⟩ := ihr hm
      exact ⟨place, Or.inr hplace, hstart⟩
  | comparison hop hlhs hrhs hc =>
    obtain ⟨hlogical, hin⟩ := Operator.isComparison_iff.mp hop
    rw [Expr.tested, if_neg (by simp [hlogical]), if_neg hin] at hm
    cases hm
  | isIn h =>
    obtain ⟨param, column, hstart, hcolumns⟩ := h.columns_eq
    obtain rfl := List.mem_singleton.mp hm
    exact ⟨(param, column), by simp [hcolumns], hstart⟩
  | inList h =>
    obtain ⟨param, column, hstart, hcolumns⟩ := h.columns_eq
    obtain rfl := List.mem_singleton.mp hm
    exact ⟨(param, column), by simp [hcolumns], hstart⟩

/-! ## Evaluation -/

/-- A compiled condition is evaluated without failing wherever what it reads is supplied. -/
theorem Compiled.exists_evalBool {c : Condition} (h : s.Compiled c) {input : Input}
    (distinct : ∀ entry ∈ s.params.entries, entry.2.NamesDistinct)
    (hs : Supplies input s.params c.columns) : ∃ b, c.evalBool input = .ok b := by
  induction h with
  | @connective op lhs rhs hop hlhs hrhs ihl ihr =>
    rw [Condition.columns, supplies_append] at hs
    obtain ⟨a, ha⟩ := ihl hs.1
    obtain ⟨b, hb⟩ := ihr hs.2
    cases op with
    | and =>
      show ∃ b, (Condition.and lhs rhs).evalBool input = .ok b
      rw [Condition.evalBool_and, ha, hb]
      cases a <;> exact ⟨_, rfl⟩
    | or =>
      rw [Condition.evalBool_or, ha, hb]
      cases a <;> exact ⟨_, rfl⟩
    | _ => cases hop
  | comparison hop ho hlhs ho' hrhs =>
    rw [Condition.columns, supplies_append] at hs
    obtain ⟨a, ha, -⟩ := sameNumber_unified distinct ho hlhs hs.1
    obtain ⟨b, hb, -⟩ := sameNumber_unified distinct ho' hrhs hs.2
    exact ⟨_, Condition.evalBool_comparison hop ha hb⟩
  | membership ho hitem hflat =>
    rw [columns_contains hitem, ← hitem.columns_eq] at hs
    obtain ⟨v, hv, -⟩ := sameNumber_unified distinct ho hitem hs
    exact ⟨_, Condition.evalBool_contains hv⟩

/-- Two rows of the tables of the sides supply whatever is read of the sides. -/
theorem supplies_pair {params : Parameters} {left right : String} {leftRow rightRow : Row}
    (hleft : ∀ d, params.find? left = some d → d.Fits leftRow)
    (hright : ∀ d, params.find? right = some d → d.Fits rightRow)
    (distinct : ∀ entry ∈ params.entries, entry.2.NamesDistinct)
    {columns : List (String × String)} (hcolumns : ∀ place ∈ columns, params.HasColumn place)
    (hsides : ∀ place ∈ columns, place.1 ∈ [left, right]) :
    Supplies (Assignment.pair left leftRow right rightRow).input params columns := by
  intro place hplace
  obtain ⟨param, name⟩ := place
  obtain ⟨d, hd, hname⟩ := hcolumns _ hplace
  have hdistinct := distinct (param, d) (Keyed.mem_of_find? hd)
  have htype : params.typeOf? param name = (d.column? name).map (·.ty) := by
    rw [Parameters.typeOf?, hd]
    rfl
  have hside := hsides _ hplace
  rw [htype]
  by_cases hparam : left = param
  · subst hparam
    rw [Link.input_pair_left]
    exact (hleft d hd).supplies hdistinct hname
  · obtain rfl : param = right := by simpa [eq_comm, hparam] using hside
    rw [Link.input_pair_right hparam]
    exact (hright d hd).supplies hdistinct hname

/-- The condition of a join reads its two sides only, and can be evaluated over any pair of their
rows, exactly when every membership in it tests a member of one of them.  Whatever else it reads, it
reads to test a member. -/
theorem readsFrom_compile_join {registry : Registry} {params : Parameters} {left right : String}
    {e : Expr} {c : Condition} (h : (join registry params left right).compile e = .ok c) :
    (∀ param ∈ c.params, param ∈ [left, right] ∨
      ∃ m ∈ e.tested, (join registry params left right).start? m = some param) ∧
    (c.ReadsFrom [left, right] ↔ ∀ m ∈ e.tested, ∃ param ∈ [left, right],
      (join registry params left right).start? m = some param) ∧
    (c.ReadsFrom [left, right] → ∀ catalogue : Catalogue,
      (∀ entry ∈ params.entries, catalogue.Describes entry.2 ∧ entry.2.NamesDistinct) →
      ∀ leftRow rightRow, (∀ d, params.find? left = some d → d.Fits leftRow) →
        (∀ d, params.find? right = some d → d.Fits rightRow) →
        ∃ b, c.evalBool (Assignment.pair left leftRow right rightRow).input = .ok b) := by
  have hcompiles := compile_eq_ok_iff.mp h
  -- Comparisons keep to the sides, so only memberships are left to read anything else.
  have hread : ∀ place ∈ c.columns, place.1 ∈ [left, right] ∨
      ∃ m ∈ e.tested, (join registry params left right).start? m = some place.1 := by
    intro place hplace
    rcases exists_tested_of_mem_columns hcompiles rfl hplace with (rfl | rfl) | htested
    · exact Or.inl List.mem_cons_self
    · exact Or.inl (List.mem_cons_of_mem _ List.mem_cons_self)
    · exact Or.inr htested
  refine ⟨?_, ⟨?_, ?_⟩, ?_⟩
  · intro param hparam
    obtain ⟨column, hcolumn⟩ := Condition.mem_params_iff.mp hparam
    exact hread (param, column) hcolumn
  · intro hreads m hm
    obtain ⟨place, hplace, hstart⟩ := exists_mem_columns_of_tested hcompiles hm
    exact ⟨place.1, Condition.readsFrom_iff.mp hreads place hplace, hstart⟩
  · intro htested
    rw [Condition.readsFrom_iff]
    intro place hplace
    rcases hread place hplace with hside | ⟨m, hm, hstart⟩
    · exact hside
    · obtain ⟨param, hparam, hstart'⟩ := htested m hm
      rw [hstart, Option.some_inj] at hstart'
      exact hstart' ▸ hparam
  · intro hreads catalogue hentries leftRow rightRow hleft hright
    have distinct := fun entry hentry => (hentries entry hentry).2
    have hcolumns := hasColumn_compile (fun entry hentry => (hentries entry hentry).1) h
    exact (compiled_compile h).exists_evalBool distinct
      (supplies_pair hleft hright distinct hcolumns (Condition.readsFrom_iff.mp hreads))

/-! ### A membership of a third parameter -/

def library : Catalogue where
  models := [
    ⟨"Author", "Authors", "id", [⟨"id", .column .i64 none none, false⟩,
      ⟨"books", .hasMany "Book" none none, false⟩]⟩,
    ⟨"Book", "Books", "id", [⟨"id", .column .i64 none none, false⟩,
      ⟨"author", .belongsTo "Author" none, false⟩, ⟨"tags", .hasMany "Tag" none none, false⟩]⟩,
    ⟨"Tag", "Tags", "id", [⟨"id", .column .i64 none none, false⟩,
      ⟨"book", .belongsTo "Book" none, false⟩]⟩]

def taggedBooks : Parameters where
  entries := [
    ("x", ⟨"Author", "Authors", "id", [⟨"id", some "id", .i64, none, true⟩],
      [⟨"books", "Book", some "author", some "author_id", "id"⟩], []⟩),
    ("x1", ⟨"Book", "Books", "id", [⟨"id", some "id", .i64, none, true⟩,
      ⟨"author_id", none, .i64, some ⟨"Author", "Authors", "id"⟩, false⟩],
      [⟨"tags", "Tag", some "book", some "book_id", "id"⟩], [⟨"author", "Author", "author_id"⟩]⟩),
    ("x2", ⟨"Tag", "Tags", "id", [⟨"id", some "id", .i64, none, true⟩,
      ⟨"book_id", none, .i64, some ⟨"Book", "Books", "id"⟩, false⟩], [],
      [⟨"book", "Book", "book_id"⟩]⟩)]
  default := some "x"

/-- The scope of a join from the authors to their books. -/
def authorsToBooks : Scope :=
  join (.ofCatalogue library) taggedBooks "x" "x1"

def listedTags : Expr :=
  .inList (.member (.ofModel "Tag" ["id"])) (.value (.list [.i64 1, .i64 2]))

/-- The condition of a join from authors to books may test the tags, which a pair of an author and a
book says nothing about. -/
theorem not_all_joins_read_their_sides :
    (¬∀ (registry : Registry) (params : Parameters) (left right : String) (e : Expr) (c : Condition),
      (join registry params left right).compile e = .ok c →
        ∀ param ∈ c.params, param = left ∨ param = right) ∧
    ∃ c, authorsToBooks.compile listedTags = .ok c ∧ ∀ author book,
      c.evalBool (Assignment.pair "x" author "x1" book).input =
        .error (.invalidResult (.noValue "x2" "id")) := by
  have hcompile : authorsToBooks.compile listedTags =
      .ok (.contains (.constant (.list [.i64 1, .i64 2])) (.member "x2" "id")) := by cbv
  refine ⟨fun h => ?_, _, hcompile, fun author book => rfl⟩
  have hparam := h _ _ _ _ _ _ hcompile "x2" (by decide)
  simp at hparam

/-- Books by one of their authors, and of a list. -/
def listedBooks : Expr :=
  .and (.eq (.member (.ofModel "Book" ["author"])) (.member (.ofModel "Author" [])))
    (.inList (.member (.ofModel "Book" ["id"])) (.value (.list [.i16 1, .i64 2])))

theorem readsFrom_compile_join_listedBooks :
    ∃ c, authorsToBooks.compile listedBooks = .ok c ∧ c.ReadsFrom ["x", "x1"] ∧
      ∃ b, c.evalBool (Assignment.pair "x" (.ofList [("id", .i64 4)])
        "x1" (.ofList [("id", .i64 2), ("author_id", .i64 4)])).input = .ok b := by
  obtain ⟨c, hcompile⟩ : ∃ c, authorsToBooks.compile listedBooks = .ok c := ⟨_, by cbv⟩
  obtain ⟨-, hreads, heval⟩ := readsFrom_compile_join hcompile
  have hsides : c.ReadsFrom ["x", "x1"] := by
    rw [hreads]
    decide
  have hentries : ∀ entry ∈ taggedBooks.entries,
      library.Describes entry.2 ∧ entry.2.NamesDistinct := by
    intro entry hentry
    simp only [taggedBooks, List.mem_cons, List.not_mem_nil, or_false] at hentry
    rcases hentry with rfl | rfl | rfl
    · exact ⟨⟨[], by cbv⟩, by decide +kernel⟩
    · exact ⟨⟨[], by cbv⟩, by decide +kernel⟩
    · exact ⟨⟨[], by cbv⟩, by decide +kernel⟩
  refine ⟨c, hcompile, hsides, heval hsides library hentries _ _ ?_ ?_⟩
  · intro d hd
    cases hd
    intro column hcolumn
    obtain rfl := List.mem_singleton.mp hcolumn
    exact ⟨.i64 4, by cbv, fun _ => Or.inr rfl⟩
  · intro d hd
    cases hd
    intro column hcolumn
    simp only [List.mem_cons, List.not_mem_nil, or_false] at hcolumn
    rcases hcolumn with rfl | rfl
    · exact ⟨.i64 2, by cbv, fun _ => Or.inr rfl⟩
    · exact ⟨.i64 4, by cbv, fun _ => Or.inr rfl⟩

end Scope
end RowGraph
