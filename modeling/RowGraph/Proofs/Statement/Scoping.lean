import Mathlib.Logic.Relation
import RowGraph.Proofs.Statement.Reachable
import RowGraph.Sql.Script

/-!
What a selection may speak of.

A selection is put together by steps that each change a part of it, and its text is written from all
parts together.  Whatever steps led to it, every parameter is introduced before it is spoken of: the
text after `FROM` introduces the root and then, link by link, the parameter that the link leads to,
and the condition of a link names no parameter that is not there by then.  The filter and the columns
that are read come from parameters that are introduced somewhere.
-/

namespace RowGraph

/-! ## The parameters that a condition reads -/

namespace Condition

mutual
theorem mem_roots_iff {param : String} :
    (c : Condition) → (param ∈ c.roots ↔ ∃ column, (param, column) ∈ c.columns)
  | .binary op lhs rhs => by
    simp only [roots, columns, List.mem_append, mem_roots_iff lhs, mem_roots_iff rhs, exists_or]
  | .call f args => by
    have hroot : param ∈ (call f args).root?.toList → ∃ column, (param, column) ∈ columnsOf args := by
      intro h
      rw [Option.mem_toList, root?, Option.map_eq_some_iff] at h
      obtain ⟨⟨_, column⟩, hcolumn, rfl⟩ := h
      exact ⟨column, Link.mem_columns_of_column? hcolumn⟩
    rw [roots, columns, List.mem_append, mem_rootsOf_iff args]
    exact or_iff_right_of_imp hroot
  | .constant v => by simp [roots, columns]
  | .member param' column => by simp [roots, columns]
  | .parameter param' key => by simp [roots, columns]

theorem mem_rootsOf_iff {param : String} :
    (cs : List Condition) → (param ∈ rootsOf cs ↔ ∃ column, (param, column) ∈ columnsOf cs)
  | [] => by simp [rootsOf, columnsOf]
  | c :: rest => by
    simp only [rootsOf, columnsOf, List.mem_append, mem_roots_iff c, mem_rootsOf_iff rest, exists_or]
end

theorem mem_params_iff {c : Condition} {param : String} :
    param ∈ c.params ↔ ∃ column, (param, column) ∈ c.columns := by
  rw [params, List.mem_eraseDups, mem_roots_iff]

/-- All parameters that the condition reads from are among the given ones. -/
def ReadsFrom (c : Condition) (names : List String) : Prop :=
  ∀ param ∈ c.params, param ∈ names

theorem readsFrom_iff {c : Condition} {names : List String} :
    c.ReadsFrom names ↔ ∀ place ∈ c.columns, place.1 ∈ names := by
  simp only [ReadsFrom, mem_params_iff]
  exact ⟨fun h place hplace => h place.1 ⟨place.2, hplace⟩,
    fun h param ⟨column, hcolumn⟩ => h (param, column) hcolumn⟩

theorem readsFrom_conjoin {existing : Option Condition} {c : Condition} {names : List String}
    (hexisting : ∀ e, existing = some e → e.ReadsFrom names) (hc : c.ReadsFrom names) :
    (conjoin existing c).ReadsFrom names := by
  cases existing with
  | none => exact hc
  | some e =>
    rw [conjoin, readsFrom_iff, and, columns]
    exact List.forall_mem_append.mpr
      ⟨readsFrom_iff.mp (hexisting e rfl), readsFrom_iff.mp hc⟩

end Condition

theorem Scope.readsFrom_compile {c : Catalogue} {s : Scope}
    (described : ∀ entry ∈ s.params.entries, c.Describes entry.2) {e : Expr}
    {condition : Condition} (h : s.compile e = .ok condition) :
    condition.ReadsFrom s.params.names := by
  rw [Condition.readsFrom_iff]
  intro place hplace
  obtain ⟨d, hd, -⟩ := hasColumn_compile described h place hplace
  exact Parameters.mem_names_of_find? hd

theorem Link.readsFrom_build {c : Catalogue} {registry : Registry} {ps : Parameters}
    {left member right : String} {on : Option Expr} {l : Link}
    (described : ∀ entry ∈ ps.entries, c.Describes entry.2)
    (h : build registry ps left member right on = .ok l) : l.condition.ReadsFrom ps.names := by
  obtain ⟨rfl, rfl, -, owner, related, relation, howner, hrelated, -, -, horigin⟩ := build_cases h
  rcases horigin with ⟨e, -, hcondition, -⟩ | ⟨-, hcondition, -⟩
  · exact Scope.readsFrom_compile described hcondition
  · have hl := Parameters.mem_names_of_find? howner
    have hr := Parameters.mem_names_of_find? hrelated
    rw [hcondition, predicate, Condition.readsFrom_iff]
    simp [Condition.eq, Condition.columns, hl, hr]

/-! ## The text after `FROM` -/

/-- A part of a selection's text that introduces a parameter. -/
structure Clause where
  text : List Sql.Fragment
  introduces : String
  /-- The parameters that the text speaks of besides. -/
  names : List String

/-- What the text of a link joins on: where that is the keys alone the text says that they are equal,
and else it is the text of the condition. -/
def Link.joinsOn (l : Link) : Condition :=
  if l.isDefault then l.predicate else l.condition

namespace Select

/-- The clause that names the table of the root. -/
def rootClause (s : Select) : Clause where
  text := [.text " FROM ", .table (s.params.table s.rootName), .text (" " ++ s.rootName)]
  introduces := s.rootName
  names := []

def linkClause (s : Select) (l : Link) : Clause where
  text := Sql.ofLink s.params l
  introduces := l.right
  names := l.joinsOn.params

def clauses (s : Select) : List Clause :=
  s.rootClause :: s.links.map s.linkClause

/-- The clauses stand in the text between the columns that are read and the filter. -/
theorem ofSelect_eq (s : Select) (aliases : Sql.AliasTable) :
    (Sql.ofSelect s aliases).1 =
      .text "SELECT " :: Sql.commas
          (List.zipWith Sql.ofAliased s.readColumns (aliases.assignAll s.readColumns).1)
        ++ s.clauses.flatMap (·.text) ++ Sql.ofFilter true s.filter := by
  simp [Sql.ofSelect, clauses, rootClause, linkClause, List.flatMap_map]

theorem readColumns_subset {s : Select} {place : String × String} (h : place ∈ s.readColumns) :
    place.1 ∈ s.params.names := by
  rw [readColumns, List.mem_flatMap] at h
  obtain ⟨⟨param, d⟩, hentry, hplace⟩ := h
  obtain ⟨column, -, rfl⟩ := List.mem_map.mp hplace
  exact List.mem_map_of_mem hentry

def LeadsTo (s : Select) (param param' : String) : Prop :=
  ∃ l ∈ s.links, l.left = param ∧ l.right = param'

/-! ## What steps preserve -/

/-- Every part of a selection reads from parameters that are there: the condition of a link from the
root and the parameters that the links up to it lead to. -/
structure ReadsKnown (s : Select) : Prop where
  links : ∀ before l after, s.links = before ++ l :: after →
    l.condition.ReadsFrom (s.rootName :: (before ++ [l]).map (·.right))
  filter : ∀ c, s.filter = some c → c.ReadsFrom s.params.names
  projection : ∀ wanted, s.projection = some wanted →
    ∀ place ∈ wanted, place.1 ∈ s.params.names

variable {c : Catalogue} {r : Registry} {s t : Select}

theorem readsKnown_ofModel {model : String} {name : Option String}
    (h : ofModel r model name = .ok s) : s.ReadsKnown := by
  rw [ofModel, Outcome.bind_eq_ok] at h
  obtain ⟨d, -, h⟩ := h
  rw [Parameters.register_empty] at h
  cases h
  refine ⟨?_, ?_, ?_⟩
  · intro before l after hlinks
    exact absurd hlinks.symm (List.append_ne_nil_of_right_ne_nil before (by simp))
  · intro c hc
    cases hc
  · intro wanted hwanted
    cases hwanted

theorem ReadsKnown.join (hs : s.ReadsKnown) (hwell : t.WellFormed c) {j : Join}
    (h : s.join r j = .ok t) : t.ReadsKnown := by
  obtain ⟨owner, model, target, right, link, -, -, hlink, ht⟩ := join_eq_ok h
  have hmono : ∀ name ∈ s.params.names, name ∈ t.params.names := by
    rw [ht.names]
    exact fun name hname => List.mem_append_left _ hname
  have hnew := Link.readsFrom_build hwell.described hlink
  rw [hwell.names, ht.root, ht.links] at hnew
  refine ⟨?_, ?_, ?_⟩
  · rw [ht.root, ht.links]
    exact forall_split_concat hs.links hnew
  · rw [ht.filter]
    exact fun c hc param hparam => hmono param (hs.filter c hc param hparam)
  · rw [ht.projection]
    exact fun wanted hwanted place hplace => hmono _ (hs.projection wanted hwanted place hplace)

theorem ReadsKnown.step (hs : s.ReadsKnown) (hwell : s.WellFormed c) (hwell' : t.WellFormed c)
    {st : Step} (h : s.step r st = .ok t) : t.ReadsKnown := by
  cases st with
  | restrict e =>
    obtain ⟨scope, condition, hscope, hcondition, rfl⟩ := restrict_eq_ok h
    have hreads := Scope.readsFrom_compile (hscope ▸ hwell.described) hcondition
    rw [hscope] at hreads
    refine ⟨hs.links, ?_, hs.projection⟩
    intro c hc
    cases hc
    exact Condition.readsFrom_conjoin hs.filter hreads
  | join j => exact hs.join hwell' h
  | columns wanted =>
    obtain ⟨found, hfound, rfl⟩ := columns_eq_ok h
    refine ⟨hs.links, hs.filter, ?_⟩
    intro wanted hwanted
    cases hwanted
    exact hfound

theorem Reached.readsKnown (h : Reached c s) : s.ReadsKnown := by
  induction h with
  | named hr h => exact readsKnown_ofModel h
  | step hs hr h ih => exact ih.step hs.wellFormed (hs.wellFormed.step hr h) h

/-! ## Scoping -/

/-- Whatever a selection speaks of is introduced, and its text introduces it in time. -/
structure WellScoped (s : Select) : Prop where
  names : s.params.names = s.rootName :: s.links.map (·.right)
  distinct : s.params.names.Nodup
  left : ∀ before l after, s.links = before ++ l :: after →
    l.left ∈ s.rootName :: before.map (·.right)
  on : ∀ before l after, s.links = before ++ l :: after →
    l.joinsOn.ReadsFrom (s.rootName :: (before ++ [l]).map (·.right))
  filter : ∀ c, s.filter = some c → c.ReadsFrom s.params.names
  projection : ∀ wanted, s.projection = some wanted → ∀ place ∈ wanted, place.1 ∈ s.params.names
  columns : ∀ place ∈ s.readColumns, place.1 ∈ s.params.names
  text : ∀ aliases, (Sql.ofSelect s aliases).1 =
    .text "SELECT " :: Sql.commas
        (List.zipWith Sql.ofAliased s.readColumns (aliases.assignAll s.readColumns).1)
      ++ s.clauses.flatMap (·.text) ++ Sql.ofFilter true s.filter
  introduced : ∀ before clause after, s.clauses = before ++ clause :: after →
    clause.introduces ∉ before.map (·.introduces) ∧
      ∀ name ∈ clause.names, name ∈ (before ++ [clause]).map (·.introduces)
  /-- No link leads to the root, and to every other parameter exactly one does. -/
  parent : ∀ param ∈ s.params.names, (∃! l, l ∈ s.links ∧ l.right = param) ↔ param ≠ s.rootName
  connected : ∀ param ∈ s.params.names, Relation.ReflTransGen s.LeadsTo s.rootName param

theorem WellFormed.readsFrom_joinsOn (hs : s.WellFormed c) (hreads : s.ReadsKnown)
    {before after : List Link} {l : Link} (hlinks : s.links = before ++ l :: after) :
    l.joinsOn.ReadsFrom (s.rootName :: (before ++ [l]).map (·.right)) := by
  rw [Link.joinsOn]
  split
  next =>
    have hleft : l.left ∈ s.rootName :: (before ++ [l]).map (·.right) := by
      rw [List.map_append, ← List.cons_append]
      exact List.mem_append_left _ (hs.rooted before l after hlinks)
    have hright : l.right ∈ s.rootName :: (before ++ [l]).map (·.right) :=
      List.mem_cons_of_mem _ (List.mem_map_of_mem (List.mem_append_right before List.mem_cons_self))
    rw [Condition.readsFrom_iff]
    intro place hplace
    simp only [Link.predicate, Condition.eq, Condition.columns, List.mem_append,
      List.mem_singleton] at hplace
    rcases hplace with rfl | rfl
    · exact hleft
    · exact hright
  next => exact hreads.links before l after hlinks

theorem WellFormed.introduced (hs : s.WellFormed c) (hreads : s.ReadsKnown)
    {before after : List Clause} {clause : Clause} (hclauses : s.clauses = before ++ clause :: after) :
    clause.introduces ∉ before.map (·.introduces) ∧
      ∀ name ∈ clause.names, name ∈ (before ++ [clause]).map (·.introduces) := by
  cases before with
  | nil =>
    injection hclauses with hclause _
    subst hclause
    exact ⟨List.not_mem_nil, nofun⟩
  | cons first before =>
    injection hclauses with hfirst hrest
    subst hfirst
    obtain ⟨earlier, rest, hlinks, rfl, hlater⟩ := List.map_eq_append_iff.mp hrest
    obtain ⟨l, later, rfl, rfl, -⟩ := List.map_eq_cons_iff.mp hlater
    have hearlier : (s.rootClause :: earlier.map s.linkClause).map (·.introduces) =
        s.rootName :: earlier.map (·.right) := by
      rw [List.map_cons, List.map_map]
      rfl
    rw [List.map_append, hearlier]
    refine ⟨hs.right_not_mem hlinks, ?_⟩
    intro name hname
    have hmem := hs.readsFrom_joinsOn hreads hlinks name hname
    rwa [List.map_append, ← List.cons_append] at hmem

/-- The links up to any of them lead from the root to their parameters. -/
theorem WellFormed.connected (hs : s.WellFormed c) {links : List Link} (hlinks : links <+: s.links) :
    ∀ param ∈ s.rootName :: links.map (·.right),
      Relation.ReflTransGen s.LeadsTo s.rootName param := by
  -- The induction takes the last link away; it starts at a parameter that the others lead to.
  induction links using List.reverseRecOn with
  | nil =>
    intro param hparam
    rw [List.map_nil, List.mem_singleton] at hparam
    exact hparam ▸ .refl
  | append_singleton before l ih =>
    obtain ⟨after, hafter⟩ := hlinks
    rw [List.append_assoc, List.singleton_append] at hafter
    have hbefore := ih ⟨l :: after, hafter⟩
    intro param hparam
    rw [List.map_append, ← List.cons_append, List.mem_append, List.map_singleton,
      List.mem_singleton] at hparam
    rcases hparam with hparam | rfl
    · exact hbefore param hparam
    · have hmem : l ∈ s.links := hafter ▸ List.mem_append_right before List.mem_cons_self
      exact (hbefore _ (hs.rooted before l after hafter.symm)).tail ⟨l, hmem, rfl, rfl⟩

theorem WellFormed.parent (hs : s.WellFormed c) {param : String} (hparam : param ∈ s.params.names) :
    (∃! l, l ∈ s.links ∧ l.right = param) ↔ param ≠ s.rootName := by
  have hdistinct := hs.distinct
  rw [hs.names, List.nodup_cons] at hdistinct
  obtain ⟨hroot, hrights⟩ := hdistinct
  constructor
  · rintro ⟨l, ⟨hl, rfl⟩, -⟩ heq
    exact hroot (heq ▸ List.mem_map_of_mem hl)
  · intro hne
    rw [hs.names] at hparam
    obtain ⟨l, hl, rfl⟩ := List.mem_map.mp (List.mem_of_ne_of_mem hne hparam)
    exact ⟨l, ⟨hl, rfl⟩, fun l' ⟨hl', heq⟩ => List.inj_on_of_nodup_map hrights hl' hl heq⟩

/-- Every selection that a program can come to have is well scoped. -/
theorem Reached.wellScoped (h : Reached c s) : s.WellScoped := by
  have hs := h.wellFormed
  have hreads := h.readsKnown
  exact {
    names := hs.names
    distinct := hs.distinct
    left := hs.rooted
    on := fun _ _ _ hlinks => hs.readsFrom_joinsOn hreads hlinks
    filter := hreads.filter
    projection := hreads.projection
    columns := fun _ hplace => readColumns_subset hplace
    text := s.ofSelect_eq
    introduced := fun _ _ _ hclauses => hs.introduced hreads hclauses
    parent := fun _ hparam => hs.parent hparam
    connected := fun param hparam =>
      hs.connected (List.prefix_refl s.links) param (hs.names ▸ hparam) }

/-! ### Two links under one name -/

def shop : Catalogue where
  models := [
    ⟨"Customer", "Customers", "id", [⟨"id", .column .i64 (some "id") none, false⟩,
      ⟨"orders", .hasMany "Order" (some "customer_id") none, false⟩]⟩,
    ⟨"Order", "Orders", "id", [⟨"id", .column .i64 (some "id") none, false⟩,
      ⟨"customer_id", .column .i64 (some "customer_id") none, false⟩,
      ⟨"items", .hasMany "Item" (some "order_id") none, false⟩]⟩,
    ⟨"Item", "Items", "id", [⟨"id", .column .i64 (some "id") none, false⟩,
      ⟨"order_id", .column .i64 (some "order_id") none, false⟩,
      ⟨"amount", .column .i64 (some "amount") none, false⟩]⟩]

def recentOrders : Link where
  left := "c"
  right := "x"
  member := "orders"
  target := "Order"
  foreignKey := "customer_id"
  primaryKey := "id"
  condition := .and (.eq (.member "c" "id") (.member "x" "customer_id"))
    (.binary .gt (.member "x" "id") (.constant (.scalar (.i64 7))))

/-- The related parameter was to have the name of its owner. -/
def itemsOfOrder : Link where
  left := "x"
  right := "x1"
  member := "items"
  target := "Item"
  foreignKey := "order_id"
  primaryKey := "id"
  condition := .eq (.member "x" "id") (.member "x1" "order_id")

/-- Customers with large items of their recent orders. -/
def largeItems : Select where
  params := ⟨[
    ("c", ⟨"Customer", "Customers", "id", [⟨"id", some "id", .i64, none, true⟩],
      [⟨"orders", "Order", none, some "customer_id", "id"⟩], []⟩),
    ("x", ⟨"Order", "Orders", "id", [⟨"id", some "id", .i64, none, true⟩,
      ⟨"customer_id", some "customer_id", .i64, none, false⟩],
      [⟨"items", "Item", none, some "order_id", "id"⟩], []⟩),
    ("x1", ⟨"Item", "Items", "id", [⟨"id", some "id", .i64, none, true⟩,
      ⟨"order_id", some "order_id", .i64, none, false⟩,
      ⟨"amount", some "amount", .i64, none, false⟩], [], []⟩)], some "c"⟩
  filter := some (.binary .gt (.member "x1" "amount") (.constant (.scalar (.i64 3))))
  links := [recentOrders, itemsOfOrder]
  projection := some [("x1", "amount")]

theorem wellScoped_largeItems :
    largeItems.Reached shop ∧ largeItems.params.names = ["c", "x", "x1"] ∧
      largeItems.WellScoped := by
  have hbuild : build (.ofCatalogue shop) "Customer" (some "c")
      [.join ⟨"orders", none, none,
        some (.and
          (.eq (.member ⟨.named "x", "Order", ["customer_id"]⟩)
            (.member (.ofModel "Customer" ["id"])))
          (.binary .gt (.member (.ofModel "Order" ["id"])) (.value (.scalar (.i64 7)))))⟩,
       .join ⟨"items", some "x", some "x", none⟩,
       .restrict (.binary .gt (.member (.ofModel "Item" ["amount"])) (.value (.scalar (.i64 3)))),
       .columns [("x1", "amount")]] = .ok largeItems := by cbv
  have hreached := reached_build .fresh hbuild
  exact ⟨hreached, rfl, Reached.wellScoped hreached⟩

end Select
end RowGraph
