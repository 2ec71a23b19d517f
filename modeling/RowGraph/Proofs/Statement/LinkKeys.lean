import Mathlib
import RowGraph.Proofs.Keyed
import RowGraph.Proofs.Schema.Relations
import RowGraph.Proofs.Statement.Reachable

/-!
Whether the keys of a link are read.

A selection asks for the key columns of all its links, whatever its projection, but it reads a
column only if the descriptor of the parameter has it.  The two can disagree in one way: a
collection declares a key by name, and the descriptor was made without a column of that name,
because no field is stored there and no model that asks for it was known then.  The rows that come
back can then not be paired.
-/

namespace RowGraph

namespace Link

variable {c : Catalogue} {l : Link} {ps : Parameters} {owner related : Descriptor}
  {relation : Relation}

/-- A key column that the owner lacks was declared by the collection. -/
theorem declared_of_primaryKey_not_mem {registered : List String} {f : FieldDecl}
    (hl : l.Follows ps owner related relation)
    (howner : c.resolve registered owner.model = .ok owner)
    (hf : c.CollectsBy owner.primaryKey relation f)
    (h : l.primaryKey ∉ owner.columns.map Column.name) :
    ∃ foreignKey, f.kind = .hasMany related.model foreignKey (some l.primaryKey) := by
  obtain ⟨foreignKey, key, -, hkind, hprimary, -⟩ := hf
  rw [hl.target] at hkind
  cases hl.keys with
  | present primary foreign => exact absurd primary h
  | declared primary foreign =>
    cases key with
    | none =>
      rw [primary, hprimary, Option.getD_none] at h
      exact absurd (Catalogue.primaryKey_mem_names howner) h
    | some key =>
      rw [hprimary, Option.getD_some] at primary
      exact ⟨foreignKey, by rw [hkind, primary]⟩

/-- A foreign key column that the related table lacks was declared by the collection. -/
theorem declared_of_foreignKey_not_mem {registered : List String} {f : FieldDecl}
    (hl : l.Follows ps owner related relation)
    (hrelated : c.resolve registered related.model = .ok related)
    (hf : c.CollectsBy owner.primaryKey relation f)
    (h : l.foreignKey ∉ related.columns.map Column.name) :
    ∃ key, f.kind = .hasMany related.model (some l.foreignKey) key := by
  obtain ⟨foreignKey, key, -, hkind, -, hforeign⟩ := hf
  rw [hl.target] at hkind hforeign
  cases hl.keys with
  | present primary foreign => exact absurd foreign h
  | declared primary foreign =>
    rw [foreignKeyOf] at foreign
    split at foreign
    next name hname =>
      cases foreign
      rw [hname] at hforeign
      rcases hforeign with rfl | ⟨g, hg, hg'⟩
      · exact ⟨key, hkind⟩
      · exact absurd (Catalogue.mem_names_of_field hrelated hg hg'.symm) h
    next =>
      obtain ⟨column, hcolumn, hname, -⟩ := boundColumn_eq_ok foreign
      exact absurd (List.mem_map.mpr ⟨column, hcolumn, hname⟩) h

/-- An owner is not known to the description of a table that lacks the column it asks for. -/
theorem not_known_of_foreignKey_not_mem {registered known : List String} {f : FieldDecl}
    {key : Option String} (howner : c.resolve registered owner.model = .ok owner)
    (hrelated : c.resolve known related.model = .ok related)
    (hf : f ∈ (c.decl owner.model).fields)
    (hkind : f.kind = .hasMany related.model (some l.foreignKey) key)
    (h : l.foreignKey ∉ related.columns.map Column.name) :
    owner.model ∉ c.known known related.model := by
  intro hknown
  obtain ⟨-, -, ⟨ty, hkey⟩, -⟩ := Catalogue.resolve_eq_ok howner
  have hasks : Catalogue.Asks (c.decl owner.model) related.model l.foreignKey := by
    refine ⟨?_, f, hf, key, hkind⟩
    rw [hkey]
    rfl
  exact h ((Catalogue.mem_names_resolve hrelated).mpr (Or.inr ⟨owner.model, hknown, hasks⟩))

theorem input_pair_left (left right column : String) (leftRow rightRow : Row) :
    (Assignment.pair left leftRow right rightRow).input left column = leftRow.get? column := by
  simp [Assignment.input, Assignment.pair, Keyed.find?]

theorem input_pair_right {left right : String} (hne : left ≠ right) (column : String)
    (leftRow rightRow : Row) :
    (Assignment.pair left leftRow right rightRow).input right column = rightRow.get? column := by
  simp [Assignment.input, Assignment.pair, Keyed.find?, hne]

/-- Two rows that have the keys of a link are paired when the keys are equal. -/
theorem pairs_eq (hne : l.left ≠ l.right) {leftRow rightRow : Row} {a b : Value}
    (ha : leftRow.get? l.primaryKey = some a) (hb : rightRow.get? l.foreignKey = some b) :
    l.pairs leftRow rightRow = .ok (a.satisfies .eq b) := by
  refine Condition.evalBool_comparison rfl ?_ ?_
  · rw [Condition.eval, Condition.read, input_pair_left, ha]
  · rw [Condition.eval, Condition.read, input_pair_right hne, hb]

/-- Two rows can be paired when each has the key of its side. -/
theorem pairs_ok_iff (hne : l.left ≠ l.right) (leftRow rightRow : Row) :
    (∃ b, l.pairs leftRow rightRow = .ok b) ↔
      leftRow.contains l.primaryKey = true ∧ rightRow.contains l.foreignKey = true := by
  rw [Row.contains, Row.contains]
  constructor
  · intro h
    obtain ⟨b, h⟩ := h
    simp only [pairs, predicate, Condition.evalBool, Condition.eq, Condition.eval, Condition.read,
      input_pair_left, input_pair_right hne] at h
    cases ha : leftRow.get? l.primaryKey with
    | none =>
      rw [ha] at h
      cases h
    | some a =>
      cases hb : rightRow.get? l.foreignKey with
      | none =>
        rw [ha, hb] at h
        cases h
      | some b => exact ⟨rfl, rfl⟩
  · intro h
    obtain ⟨a, ha⟩ := Option.isSome_iff_exists.mp h.1
    obtain ⟨b, hb⟩ := Option.isSome_iff_exists.mp h.2
    exact ⟨_, pairs_eq hne ha hb⟩

end Link

namespace Select

variable {c : Catalogue} {s : Select}

/-- The selection reads a column that is spelled somehow like the given one. -/
def ReadsAs (s : Select) (param column : String) : Prop :=
  ∃ name, (param, name) ∈ s.readColumns ∧ Text.fold name = Text.fold column

/-- The row has the columns that the selection reads of a parameter, and no others. -/
def Fills (s : Select) (param : String) (row : Row) : Prop :=
  ∀ column, row.contains column = true ↔ s.ReadsAs param column

/-- What is read of a parameter are those of its columns that are asked for. -/
theorem mem_readColumns (hs : s.WellFormed c) {param column : String} {d : Descriptor}
    (hd : s.params.find? param = some d) :
    (param, column) ∈ s.readColumns ↔
      column ∈ d.columns.map Column.name ∧ s.reads param column = true := by
  rw [readColumns, List.mem_flatMap]
  constructor
  · rintro ⟨⟨name, d'⟩, hentry, hplace⟩
    obtain ⟨found, hfound, heq⟩ := List.mem_map.mp hplace
    obtain ⟨hfound, hreads⟩ := List.mem_filter.mp hfound
    injection heq with hname hcolumn
    subst hname hcolumn
    have hd' := Keyed.find?_of_mem hs.distinct hentry
    rw [show s.params.entries.find? name = some d from hd] at hd'
    injection hd' with hd'
    exact ⟨List.mem_map.mpr ⟨found, hd' ▸ hfound, rfl⟩, hreads⟩
  · rintro ⟨hcolumn, hreads⟩
    obtain ⟨found, hfound, rfl⟩ := List.mem_map.mp hcolumn
    exact ⟨(param, d), Keyed.mem_of_find? hd,
      List.mem_map.mpr ⟨found, List.mem_filter.mpr ⟨hfound, hreads⟩, rfl⟩⟩

/-- No projection leaves out a key of a link. -/
theorem reads_of_isLinkKey {param column : String} (h : s.isLinkKey param column = true) :
    s.reads param column = true := by
  rw [reads]
  cases s.projection with
  | none => rfl
  | some wanted => simp [h]

theorem isLinkKey_primaryKey {l : Link} (hl : l ∈ s.links) :
    s.isLinkKey l.left l.primaryKey = true := by
  rw [isLinkKey, List.any_eq_true]
  exact ⟨l, hl, by simp⟩

theorem isLinkKey_foreignKey {l : Link} (hl : l ∈ s.links) :
    s.isLinkKey l.right l.foreignKey = true := by
  rw [isLinkKey, List.any_eq_true]
  exact ⟨l, hl, by simp⟩

/-- The keys of a link are read exactly when the descriptors of its parameters have columns of their
names, which the declarations decide together with the models known when each descriptor was made.
A key that is not read was declared by name on the collection, and a foreign key that is not read
belongs to an owner that was not known.  Rows read through the selection can be paired exactly when
both keys are read in some spelling. -/
theorem Reached.mem_readColumns_keys (h : Reached c s) {l : Link} (hl : l ∈ s.links) :
    ∃ owner related ownerModels relatedModels,
      s.params.find? l.left = some owner ∧ c.resolve ownerModels owner.model = .ok owner ∧
      s.params.find? l.right = some related ∧ c.resolve relatedModels related.model = .ok related ∧
      ((l.left, l.primaryKey) ∈ s.readColumns ↔
        c.Stores ownerModels owner.model l.primaryKey) ∧
      ((l.right, l.foreignKey) ∈ s.readColumns ↔
        c.Stores relatedModels related.model l.foreignKey) ∧
      (∃ f ∈ (c.decl owner.model).fields, f.name = l.member ∧
        ((l.left, l.primaryKey) ∉ s.readColumns →
          ∃ foreignKey, f.kind = .hasMany related.model foreignKey (some l.primaryKey)) ∧
        ((l.right, l.foreignKey) ∉ s.readColumns →
          (∃ key, f.kind = .hasMany related.model (some l.foreignKey) key) ∧
            owner.model ∉ c.known relatedModels related.model)) ∧
      ∀ leftRow rightRow, s.Fills l.left leftRow → s.Fills l.right rightRow →
        ((∃ b, l.pairs leftRow rightRow = .ok b) ↔
          s.ReadsAs l.left l.primaryKey ∧ s.ReadsAs l.right l.foreignKey) := by
  have hs := h.wellFormed
  obtain ⟨owner, related, relation, hfollows⟩ := hs.follows l hl
  obtain ⟨ownerModels, howner⟩ := hs.described _ (Keyed.mem_of_find? hfollows.left)
  obtain ⟨relatedModels, hrelated⟩ := hs.described _ (Keyed.mem_of_find? hfollows.right)
  have hprimary : (l.left, l.primaryKey) ∈ s.readColumns ↔
      l.primaryKey ∈ owner.columns.map Column.name := by
    rw [mem_readColumns hs hfollows.left]
    exact and_iff_left (reads_of_isLinkKey (isLinkKey_primaryKey hl))
  have hforeign : (l.right, l.foreignKey) ∈ s.readColumns ↔
      l.foreignKey ∈ related.columns.map Column.name := by
    rw [mem_readColumns hs hfollows.right]
    exact and_iff_left (reads_of_isLinkKey (isLinkKey_foreignKey hl))
  have hmember : relation.member = l.member := by
    simpa using List.find?_some hfollows.member
  obtain ⟨f, hf, hcollects⟩ :=
    Catalogue.relation_cases howner (List.mem_of_find?_eq_some hfollows.member)
  refine ⟨owner, related, ownerModels, relatedModels, hfollows.left, howner, hfollows.right,
    hrelated, ?_, ?_, ⟨f, hf, ?_, ?_, ?_⟩, ?_⟩
  · rw [hprimary]
    exact Catalogue.mem_names_resolve howner
  · rw [hforeign]
    exact Catalogue.mem_names_resolve hrelated
  · obtain ⟨-, -, hname, -⟩ := hcollects
    exact hname.trans hmember
  · intro hmissing
    rw [hprimary] at hmissing
    exact Link.declared_of_primaryKey_not_mem hfollows howner hcollects hmissing
  · intro hmissing
    rw [hforeign] at hmissing
    obtain ⟨key, hkind⟩ :=
      Link.declared_of_foreignKey_not_mem hfollows hrelated hcollects hmissing
    exact ⟨⟨key, hkind⟩, Link.not_known_of_foreignKey_not_mem howner hrelated hf hkind hmissing⟩
  · intro leftRow rightRow hleftRow hrightRow
    rw [Link.pairs_ok_iff (hs.left_ne_right hl), hleftRow, hrightRow]

/-! ### A key that is not read -/

/-- Authors ask for a foreign key in the table of their books, which do not know of it. -/
def writers : Catalogue where
  models := [
    ⟨"Author", "Authors", "id", [⟨"id", .column .i64 (some "id") none, false⟩,
      ⟨"books", .hasMany "Book" (some "writer_id") none, false⟩]⟩,
    ⟨"Book", "Books", "id", [⟨"id", .column .i64 (some "id") none, false⟩,
      ⟨"title", .column .string (some "title") none, false⟩]⟩]

def booksOfAuthor : Link where
  left := "x"
  right := "x1"
  member := "books"
  target := "Book"
  foreignKey := "writer_id"
  primaryKey := "id"
  condition := .eq (.member "x" "id") (.member "x1" "writer_id")

/-- Authors with the titles of their books, no model being registered. -/
def titles : Select where
  params := ⟨[("x", ⟨"Author", "Authors", "id", [⟨"id", some "id", .i64, none, true⟩],
      [⟨"books", "Book", none, some "writer_id", "id"⟩], []⟩),
    ("x1", ⟨"Book", "Books", "id", [⟨"id", some "id", .i64, none, true⟩,
      ⟨"title", some "title", .string, none, false⟩], [], []⟩)], some "x"⟩
  filter := none
  links := [booksOfAuthor]
  projection := some [("x1", "title")]

theorem reached_titles : Reached writers titles := by
  have hbuild : build (.ofCatalogue writers) "Author" none
      [.join ⟨"books", none, none, none⟩, .columns [("x1", "title")]] = .ok titles := by cbv
  exact reached_build .fresh hbuild

theorem not_all_keys_read :
    ¬∀ c s, Reached c s → ∀ l ∈ s.links,
      (l.left, l.primaryKey) ∈ s.readColumns ∧ (l.right, l.foreignKey) ∈ s.readColumns := by
  intro h
  have hread := (h writers titles reached_titles booksOfAuthor List.mem_cons_self).2
  have hmissing : (booksOfAuthor.right, booksOfAuthor.foreignKey) ∉ titles.readColumns := by
    decide
  exact hmissing hread

theorem mem_readColumns_keys_titles :
    Reached writers titles ∧ booksOfAuthor ∈ titles.links ∧
      ∃ models, ¬writers.Stores models "Book" "writer_id" ∧
        "Author" ∉ writers.known models "Book" := by
  refine ⟨reached_titles, List.mem_cons_self, ?_⟩
  obtain ⟨owner, related, -, relatedModels, howner, -, hrelated, -, -, hforeign, ⟨f, -, -, -, hf⟩,
    -⟩ := Reached.mem_readColumns_keys reached_titles (l := booksOfAuthor) List.mem_cons_self
  have hmissing : (booksOfAuthor.right, booksOfAuthor.foreignKey) ∉ titles.readColumns := by
    decide
  cases howner
  cases hrelated
  exact ⟨relatedModels, mt hforeign.mpr hmissing, (hf hmissing).2⟩

end Select
end RowGraph
