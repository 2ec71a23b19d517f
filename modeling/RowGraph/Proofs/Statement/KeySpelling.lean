import RowGraph.Proofs.Compilation.Respelling
import RowGraph.Proofs.Repository.Written
import RowGraph.Proofs.Statement.JoinSides

/-!
Spellings of keys.

The key of a parameter is the parameter as a whole or its key member, and the key of what a
reference points at is the reference followed to that key or just the reference.  Where names are
distinct, the spellings of a key end at one column: the shorter path of a reference compiles to the
same condition, a parameter and its key member to conditions that are written and evaluated alike,
and a link has the same keys in either spelling.
-/

namespace RowGraph

/-- The second member stops at the reference that the first follows one step further. -/
def Member.StopsAtReference (m m' : Member) : Prop :=
  ∃ navigation key, m.path = [navigation, key] ∧ m' = { m with path := [navigation] }

/-- The second member is the key member of the parameter that the first is as a whole. -/
def Catalogue.NamesKey (c : Catalogue) (m m' : Member) : Prop :=
  m.path = [] ∧ m' = { m with path := [(c.decl m.model).primaryKey] }

/-- The descriptor is of a declared model whose fields have different names, and so have its columns
to a database. -/
structure Catalogue.DescribesDistinctly (c : Catalogue) (d : Descriptor) : Prop where
  described : c.Describes d
  fields : ((c.decl d.model).fields.map (·.name)).Nodup
  columns : d.NamesDistinct

/-- The conditions have one text in every format, with the same values beside it, and one outcome
on every input. -/
structure Condition.Interchangeable (a b : Condition) : Prop where
  text : ∀ format qualified, Sql.layout format (Sql.ofCondition qualified a) =
    Sql.layout format (Sql.ofCondition qualified b)
  bound : ∀ format qualified, Sql.bound format (Sql.ofCondition qualified a) =
    Sql.bound format (Sql.ofCondition qualified b)
  eval : ∀ input, a.eval input = b.eval input
  evalBool : ∀ input, a.evalBool input = b.evalBool input

theorem Condition.interchangeable_of_columnwise_eq {a b : Condition}
    (h : a.columnwise = b.columnwise) : a.Interchangeable b where
  text format qualified := by rw [← ofCondition_columnwise, h, ofCondition_columnwise]
  bound format qualified := by rw [← ofCondition_columnwise, h, ofCondition_columnwise]
  eval input := by rw [← eval_columnwise, h, eval_columnwise]
  evalBool input := by rw [← evalBool_columnwise, h, evalBool_columnwise]

/-! ## The columns of keys -/

namespace Catalogue.DescribesDistinctly

variable {c : Catalogue} {d : Descriptor} (hd : c.DescribesDistinctly d)
include hd

/-- A reference is stored in its own column. -/
theorem storage?_of_reference? {navigation : String} {r : Reference}
    (hr : d.reference? navigation = some r) : d.storage? navigation = some r.column := by
  obtain ⟨registered, h⟩ := hd.described
  have hmember : r.member = navigation := by simpa using List.find?_some hr
  have hmem : r ∈ d.references := List.mem_of_find?_eq_some hr
  rw [references_resolve h, List.mem_filterMap] at hmem
  obtain ⟨f, hf, hown⟩ := hmem
  rw [← hmember, member_of_ownReference? hown]
  refine storage?_of_stored h hd.fields
    ⟨hf, (FieldDecl.columnName?_eq_some d.primaryKey).mpr (Or.inr ?_)⟩
  rw [hown]
  rfl

/-- The key member is stored in the key column. -/
theorem storage?_primaryKey :
    d.storage? (c.decl d.model).primaryKey = some d.keyColumn.name := by
  obtain ⟨registered, h⟩ := hd.described
  obtain ⟨f, hf, hname, ty, hown⟩ := keyField_resolve h
  have hkey : d.keyColumn.name = d.primaryKey :=
    name_of_isKey h (Descriptor.keyColumn_mem (hasKey_resolve h)) d.isKey_keyColumn
  rw [hkey, ← hname]
  refine storage?_of_stored h hd.fields
    ⟨hf, (FieldDecl.columnName?_eq_some d.primaryKey).mpr (Or.inl ?_)⟩
  rw [hown]
  rfl

/-- A parameter as a whole has the type of its key column. -/
theorem alike_keyColumn (param : String) :
    Operand.Alike Condition.columnwise ⟨.parameter param d.keyColumn.name, some d.keyColumn.ty⟩
      (Scope.column param d d.keyColumn.name) := by
  obtain ⟨registered, h⟩ := hd.described
  have hmem := Descriptor.keyColumn_mem (hasKey_resolve h)
  refine ⟨rfl, ?_⟩
  show some d.keyColumn.ty = (d.column? d.keyColumn.name).map (·.ty)
  rw [Descriptor.column?_eq_some hd.columns hmem rfl]
  rfl

end Catalogue.DescribesDistinctly

/-! ## Members -/

namespace Scope

variable {c : Catalogue} {s : Scope}
  (declared : ∀ entry ∈ s.params.entries, c.DescribesDistinctly entry.2)
include declared

/-- Stopping at a reference gives the same operand, the column of the reference. -/
theorem follows_stopsAtReference :
    s.Follows id fun m m' => m' = m ∨ m.StopsAtReference m' := by
  rintro m m' o (rfl | ⟨navigation, key, hpath, rfl⟩) ho
  · exact ⟨o, ho, .refl id o⟩
  · obtain ⟨param, d, hparam, hfind, hmodel, hfolds⟩ := memberOperand_eq_ok_iff.mp ho
    have hd := declared _ (Keyed.mem_of_find? hfind)
    rw [hpath] at hfolds
    cases hfolds with
    | targetKey hreference =>
      exact ⟨_, memberOperand_eq_ok_iff.mpr
        ⟨param, d, hparam, hfind, hmodel, .stored (hd.storage?_of_reference? hreference)⟩,
        .refl id _⟩

/-- The key member gives an operand like that of the parameter as a whole. -/
theorem follows_namesKey :
    s.Follows Condition.columnwise fun m m' => m' = m ∨ c.NamesKey m m' := by
  rintro m m' o (rfl | ⟨hpath, rfl⟩) ho
  · exact ⟨o, ho, .refl _ o⟩
  · obtain ⟨param, d, hparam, hfind, hmodel, hfolds⟩ := memberOperand_eq_ok_iff.mp ho
    have hd := declared _ (Keyed.mem_of_find? hfind)
    rw [hpath] at hfolds
    cases hfolds
    exact ⟨_, memberOperand_eq_ok_iff.mpr
      ⟨param, d, hparam, hfind, hmodel, .stored (hmodel ▸ hd.storage?_primaryKey)⟩,
      hd.alike_keyColumn param⟩

/-- The parameter as a whole gives an operand like that of its key member. -/
theorem follows_namesKey_symm :
    s.Follows Condition.columnwise fun m m' => m = m' ∨ c.NamesKey m' m := by
  rintro m m' o (rfl | ⟨hpath, rfl⟩) ho
  · exact ⟨o, ho, .refl _ o⟩
  · obtain ⟨param, d, hparam, hfind, hmodel, hfolds⟩ := memberOperand_eq_ok_iff.mp ho
    have hd := declared _ (Keyed.mem_of_find? hfind)
    cases hfolds with
    | stored hstorage =>
      rw [← show d.model = m'.model from hmodel, hd.storage?_primaryKey] at hstorage
      cases hstorage
      exact ⟨_, memberOperand_eq_ok_iff.mpr
        ⟨param, d, hparam, hfind, hmodel, hpath ▸ .key⟩, (hd.alike_keyColumn param).symm⟩

end Scope

/-! ## Keys of links -/

namespace Link

theorem equated?_columnwise (left right : String) (part : Condition) :
    equated? left right part.columnwise = equated? left right part := by
  cases part with
  | binary op lhs rhs =>
    cases op with
    | eq =>
      rw [Condition.columnwise, equated?, equated?, Condition.column?_columnwise,
        Condition.column?_columnwise]
    | _ => rfl
  | _ => rfl

/-- Conditions that are the same column by column name the same keys. -/
theorem keyPair_of_columnwise_eq {a b : Condition} (h : a.columnwise = b.columnwise)
    {left right : String} {keys : String × String} (hkeys : keyPair a left right = .ok keys) :
    keyPair b left right = .ok keys := by
  have hfind : ∀ condition : Condition,
      condition.columnwise.conjuncts.findSome? (equated? left right) =
        condition.conjuncts.findSome? (equated? left right) := by
    intro condition
    rw [Condition.conjuncts_columnwise, List.findSome?_map]
    exact congrArg (List.findSome? · _) (funext (equated?_columnwise left right))
  rw [keyPair, ← hfind, h, hfind] at hkeys
  rw [keyPair]
  split at hkeys
  next => exact hkeys
  next => cases hkeys

variable {registry : Registry} {ps : Parameters} {left member right : String} {e e' : Expr}
  {l : Link}

/-- A link is built on another condition of the caller that names the same keys. -/
theorem build_of_keyPair (h : build registry ps left member right (some e) = .ok l)
    {condition : Condition}
    (hcompile : (Scope.join registry ps left right).compile e' = .ok condition)
    (hkeys : keyPair condition left right = .ok (l.primaryKey, l.foreignKey)) :
    build registry ps left member right (some e') = .ok { l with condition := condition } := by
  simp only [build, Outcome.bind_eq_ok] at h ⊢
  obtain ⟨owner, howner, related, hrelated, relation, hrelation, h⟩ := h
  refine ⟨owner, howner, related, hrelated, relation, hrelation, ?_⟩
  split at h
  next => cases h
  next htarget =>
    simp only [Outcome.bind_eq_ok] at h
    obtain ⟨_, -, _, -, h⟩ := h
    cases h
    rw [if_neg htarget]
    simp only [Outcome.bind_eq_ok]
    exact ⟨condition, hcompile, _, hkeys, rfl⟩

/-- A link is built alike on an expression whose members stand for those of another one, where
this leaves the columns of conditions as they are. -/
theorem build_of_follows {φ : Condition → Condition} {R : Member → Member → Prop}
    (hφ : Condition.Transparent φ)
    (hcolumns : ∀ a b : Condition, φ a = φ b → a.columnwise = b.columnwise)
    (hR : (Scope.join registry ps left right).Follows φ R) (he : e.Respelled R e')
    (h : build registry ps left member right (some e) = .ok l) :
    ∃ condition, build registry ps left member right (some e') =
      .ok { l with condition := condition } ∧ φ l.condition = φ condition := by
  obtain ⟨-, -, -, owner, related, relation, -, -, -, -, horigin⟩ := build_cases h
  rcases horigin with ⟨given, hgiven, hcompile, hkeys⟩ | ⟨hnone, -⟩
  · cases hgiven
    obtain ⟨condition, hcompile', hsame⟩ := hR.compile hφ he hcompile
    exact ⟨condition, build_of_keyPair h hcompile'
      (keyPair_of_columnwise_eq (hcolumns _ _ hsame) hkeys), hsame⟩
  · cases hnone

end Link

/-! ## Spellings of whole expressions -/

namespace Scope

variable {c : Catalogue} {s : Scope}

section Spelled

variable (declared : ∀ entry ∈ s.params.entries, c.DescribesDistinctly entry.2) {e e' : Expr}
  {left member right : String} {l : Link}
include declared

theorem compile_of_stopsAtReference
    (he : e.Respelled (fun m m' => m' = m ∨ m.StopsAtReference m') e') {condition : Condition}
    (h : s.compile e = .ok condition) : s.compile e' = .ok condition := by
  obtain ⟨condition', hcompile, rfl⟩ :=
    (follows_stopsAtReference declared).compile Condition.transparent_id he h
  exact hcompile

theorem build_of_stopsAtReference
    (he : e.Respelled (fun m m' => m' = m ∨ m.StopsAtReference m') e')
    (h : Link.build s.registry s.params left member right (some e) = .ok l) :
    Link.build s.registry s.params left member right (some e') = .ok l := by
  obtain ⟨condition, hbuild, hsame⟩ := Link.build_of_follows Condition.transparent_id
    (fun _ _ => congrArg Condition.columnwise)
    (follows_stopsAtReference (s := .join s.registry s.params left right) declared) he h
  rw [hbuild, ← show l.condition = condition from hsame]

variable (he : e.Respelled (fun m m' => m' = m ∨ c.NamesKey m m') e')
include he

theorem compile_of_namesKey {a : Condition} (h : s.compile e = .ok a) :
    ∃ b, s.compile e' = .ok b ∧ a.Interchangeable b := by
  obtain ⟨b, hcompile, hsame⟩ :=
    (follows_namesKey declared).compile Condition.transparent_columnwise he h
  exact ⟨b, hcompile, Condition.interchangeable_of_columnwise_eq hsame⟩

theorem exists_compile_of_namesKey {b : Condition} (h : s.compile e' = .ok b) :
    ∃ a, s.compile e = .ok a := by
  obtain ⟨a, hcompile, -⟩ :=
    (follows_namesKey_symm declared).compile Condition.transparent_columnwise he.symm h
  exact ⟨a, hcompile⟩

theorem build_of_namesKey
    (h : Link.build s.registry s.params left member right (some e) = .ok l) :
    ∃ condition, Link.build s.registry s.params left member right (some e') =
      .ok { l with condition := condition } := by
  obtain ⟨condition, hbuild, -⟩ := Link.build_of_follows Condition.transparent_columnwise
    (fun _ _ => id) (follows_namesKey (s := .join s.registry s.params left right) declared) he h
  exact ⟨condition, hbuild⟩

theorem exists_build_of_namesKey
    (h : Link.build s.registry s.params left member right (some e') = .ok l) :
    ∃ k, Link.build s.registry s.params left member right (some e) = .ok k := by
  obtain ⟨condition, hbuild, -⟩ := Link.build_of_follows Condition.transparent_columnwise
    (fun _ _ => id) (follows_namesKey_symm (s := .join s.registry s.params left right) declared)
    he.symm h
  exact ⟨_, hbuild⟩

end Spelled

/-- Spellings of keys make no difference.  Where the paths of an expression that follow a reference
to the key of its target stop at the reference instead, what compiles compiles to the same
condition, and a link that is built is the same.  Where key members stand for their parameters as a
whole, either both expressions compile, to interchangeable conditions, or neither does, and either
both make a link, with the same keys, or neither does.  A join still tells such links apart where it
leaves out the parentheses around a bare equation of columns. -/
theorem compile_keySpelling (declared : ∀ entry ∈ s.params.entries, c.DescribesDistinctly entry.2)
    (e e' : Expr) :
    (e.Respelled (fun m m' => m' = m ∨ m.StopsAtReference m') e' →
      (∀ condition, s.compile e = .ok condition → s.compile e' = .ok condition) ∧
      ∀ left member right l, Link.build s.registry s.params left member right (some e) = .ok l →
        Link.build s.registry s.params left member right (some e') = .ok l) ∧
    (e.Respelled (fun m m' => m' = m ∨ c.NamesKey m m') e' →
      ((∃ a, s.compile e = .ok a) ↔ ∃ b, s.compile e' = .ok b) ∧
      (∀ a b, s.compile e = .ok a → s.compile e' = .ok b → a.Interchangeable b) ∧
      ∀ left member right,
        ((∃ k, Link.build s.registry s.params left member right (some e) = .ok k) ↔
          ∃ l, Link.build s.registry s.params left member right (some e') = .ok l) ∧
        ∀ k l, Link.build s.registry s.params left member right (some e) = .ok k →
          Link.build s.registry s.params left member right (some e') = .ok l →
          k.primaryKey = l.primaryKey ∧ k.foreignKey = l.foreignKey) := by
  refine ⟨fun he => ⟨fun condition => compile_of_stopsAtReference declared he,
    fun left member right l => build_of_stopsAtReference declared he⟩,
    fun he => ⟨⟨?_, ?_⟩, fun a b ha hb => ?_, fun left member right => ⟨⟨?_, ?_⟩, ?_⟩⟩⟩
  · rintro ⟨a, ha⟩
    obtain ⟨b, hb, -⟩ := compile_of_namesKey declared he ha
    exact ⟨b, hb⟩
  · rintro ⟨b, hb⟩
    exact exists_compile_of_namesKey declared he hb
  · obtain ⟨b', hb', hsame⟩ := compile_of_namesKey declared he ha
    rw [hb] at hb'
    cases hb'
    exact hsame
  · rintro ⟨k, hk⟩
    obtain ⟨condition, hl⟩ := build_of_namesKey declared he hk
    exact ⟨_, hl⟩
  · rintro ⟨l, hl⟩
    exact exists_build_of_namesKey declared he hl
  · intro k l hk hl
    obtain ⟨condition, hl'⟩ := build_of_namesKey declared he hk
    rw [hl] at hl'
    cases hl'
    exact ⟨rfl, rfl⟩

/-- Authors joined to their books, by a path to the key of each side. -/
def writtenBy (author book : List String) : Expr :=
  .eq (.member (.ofModel "Author" author)) (.member (.ofModel "Book" book))

theorem compile_keySpelling_writtenBy :
    (∀ entry ∈ taggedBooks.entries, library.DescribesDistinctly entry.2) ∧
    (∃ l, Link.build (.ofCatalogue library) taggedBooks "x" "books" "x1"
        (some (writtenBy [] ["author", "id"])) = .ok l ∧
      Link.build (.ofCatalogue library) taggedBooks "x" "books" "x1"
        (some (writtenBy [] ["author"])) = .ok l) ∧
    ∃ a b, authorsToBooks.compile (writtenBy [] ["author", "id"]) = .ok a ∧
      authorsToBooks.compile (writtenBy ["id"] ["author", "id"]) = .ok b ∧ a ≠ b ∧
      a.Interchangeable b := by
  have hentries : ∀ entry ∈ taggedBooks.entries, library.DescribesDistinctly entry.2 := by
    intro entry hentry
    simp only [taggedBooks, List.mem_cons, List.not_mem_nil, or_false] at hentry
    rcases hentry with rfl | rfl | rfl
    · exact ⟨⟨[], by cbv⟩, by decide, by decide +kernel⟩
    · exact ⟨⟨[], by cbv⟩, by decide, by decide +kernel⟩
    · exact ⟨⟨[], by cbv⟩, by decide, by decide +kernel⟩
  have hstops : (writtenBy [] ["author", "id"]).Respelled
      (fun m m' => m' = m ∨ m.StopsAtReference m') (writtenBy [] ["author"]) :=
    .binary _ (.member (.inl rfl)) (.member (.inr ⟨"author", "id", rfl, rfl⟩))
  have hkey : (writtenBy [] ["author", "id"]).Respelled
      (fun m m' => m' = m ∨ library.NamesKey m m') (writtenBy ["id"] ["author", "id"]) :=
    .binary _ (.member (.inr ⟨rfl, rfl⟩)) (.member (.inl rfl))
  have hspellings := @compile_keySpelling library authorsToBooks hentries
  have hbuild : ∃ l, Link.build (.ofCatalogue library) taggedBooks "x" "books" "x1"
      (some (writtenBy [] ["author", "id"])) = .ok l := ⟨_, by cbv⟩
  obtain ⟨l, hl⟩ := hbuild
  have ha : authorsToBooks.compile (writtenBy [] ["author", "id"]) =
      .ok (.eq (.parameter "x" "id") (.member "x1" "author_id")) := by cbv
  have hb : authorsToBooks.compile (writtenBy ["id"] ["author", "id"]) =
      .ok (.eq (.member "x" "id") (.member "x1" "author_id")) := by cbv
  have hne : Condition.eq (.parameter "x" "id") (.member "x1" "author_id") ≠
      .eq (.member "x" "id") (.member "x1" "author_id") := by
    intro heq
    cases heq
  exact ⟨hentries, ⟨l, hl, ((hspellings _ _).1 hstops).2 _ _ _ _ hl⟩, _, _, ha, hb, hne,
    ((hspellings _ _).2 hkey).2.1 _ _ ha hb⟩

end Scope
end RowGraph
