import RowGraph.Proofs.Lists
import RowGraph.Proofs.Schema.Bindings
import RowGraph.Proofs.Schema.Reachability
import RowGraph.Proofs.Schema.Requests

/-!
Models registered in another order.

Which models a description knows does not depend on the order in which models were registered, only
the order in which it meets them does.  So it succeeds or fails alike, and its descriptor is the
same but for the order of the columns, save where collections of two models name one foreign key in
the table: that column is the one asked for by the model that is met first.
-/

namespace RowGraph

/-! ## Descriptors that agree -/

/-- The columns are the same, or one of a contested name in two forms. -/
structure Column.AgreesUpTo (contested : String → Prop) (a b : Column) : Prop where
  name : a.name = b.name
  member : a.member = b.member
  isKey : a.isKey = b.isKey
  whole : ¬contested a.name → a = b

/-- The descriptors are the same, but for the order of their columns and the forms of contested
ones. -/
structure Descriptor.AgreesUpTo (contested : String → Prop) (d d' : Descriptor) : Prop where
  model : d.model = d'.model
  table : d.table = d'.table
  primaryKey : d.primaryKey = d'.primaryKey
  relations : d.relations = d'.relations
  references : d.references = d'.references
  columns : ∃ columns : List Column, columns.Perm d.columns ∧
    List.Forall₂ (Column.AgreesUpTo contested) columns d'.columns

/-- Where nothing is contested, the columns are the same up to their order. -/
theorem Descriptor.AgreesUpTo.perm {contested : String → Prop} {d d' : Descriptor}
    (h : d.AgreesUpTo contested d') (hnone : ∀ name, ¬contested name) :
    d.columns.Perm d'.columns := by
  obtain ⟨columns, hperm, hagree⟩ := h.columns
  have heq : columns = d'.columns := by
    rw [← List.forall₂_eq_eq_eq]
    exact hagree.imp fun _ _ hab => hab.whole (hnone _)
  exact heq ▸ hperm.symm

namespace Catalogue

variable {c : Catalogue}

/-! ## What does not depend on registrations -/

/-- The descriptor of a model without the columns that other models ask for. -/
def describeAlone (c : Catalogue) (model : String) : Outcome Descriptor :=
  let decl := c.decl model
  match decl.keyColumn? with
  | none => .error (.invalidSchema (.missingPrimaryKey model))
  | some (primaryKey, _) => do
    let declared ← c.fieldColumns decl primaryKey
    let (columns, references) ← c.withReferences decl declared
    let relations ← c.relationsOf decl primaryKey
    return ⟨model, decl.table, primaryKey, columns, relations, references⟩

theorem resolve_eq_describeAlone (c : Catalogue) (registered : List String) (model : String) :
    c.resolve registered model = (c.describeAlone model).map fun d =>
      { d with columns := c.withIncoming model (c.known registered model) d.columns } := by
  rw [resolve, describeAlone]
  cases (c.decl model).keyColumn? with
  | none => rfl
  | some key =>
    cases hdeclared : c.fieldColumns (c.decl model) key.1 with
    | error e => simp [hdeclared]; rfl
    | ok declared =>
      cases hreferences : c.withReferences (c.decl model) declared with
      | error e => simp [hdeclared, hreferences]; rfl
      | ok found =>
        cases hrelations : c.relationsOf (c.decl model) key.1 with
        | error e => simp [hdeclared, hreferences, hrelations]; rfl
        | ok relations => simp [hdeclared, hreferences, hrelations]; rfl

/-- Up to the columns that other models ask for, names are those of the fields, each once. -/
theorem describeAlone_eq_ok {model : String} {d : Descriptor}
    (h : c.describeAlone model = .ok d) : (d.columns.map Column.name).Nodup ∧
      ∀ name, name ∈ d.columns.map Column.name ↔
        ∃ f ∈ (c.decl model).fields, f.columnName? = some name := by
  rw [describeAlone] at h
  cases hkey : (c.decl model).keyColumn? with
  | none =>
    simp only [hkey] at h
    cases h
  | some key =>
    simp only [hkey, Outcome.bind_eq_ok] at h
    obtain ⟨declared, hdeclared, ⟨columns, references⟩, hreferences, relations, -, h⟩ := h
    cases h
    exact ⟨nodup_names_withReferences hreferences (nodup_names_fieldColumns hdeclared),
      fun name => mem_names_withReferences hdeclared hreferences⟩

/-! ## Contested columns -/

theorem isSome_askedColumn?_iff {owner : ModelDecl} {model name : String} :
    (owner.askedColumn? model name).isSome = true ↔ Asks owner model name := by
  rw [ModelDecl.askedColumn?, Asks]
  cases owner.keyColumn? with
  | none => simp
  | some key =>
    rw [Option.bind_some, List.findSome?_isSome_iff]
    simp only [Option.isSome_some, true_and, AsksFor, Option.isSome_iff_exists,
      FieldDecl.askedColumn?_eq_some]
    refine exists_congr fun f => and_congr_right fun _ => ?_
    constructor
    · rintro ⟨_, key, hkind, -⟩
      exact ⟨key, hkind⟩
    · rintro ⟨key, hkind⟩
      exact ⟨_, key, hkind, rfl⟩

/-- The model is met when the declarations are walked from the registered models and from the
described one. -/
def Meets (c : Catalogue) (models : List String) (model owner : String) : Prop :=
  ∃ start, (start ∈ models ∨ start = model) ∧ c.LeadsTo start owner

/-- Two models ask for a column of the name, and no field of the described model is stored in it. -/
def Contested (c : Catalogue) (models : List String) (model name : String) : Prop :=
  (∀ f ∈ (c.decl model).fields, f.columnName? ≠ some name) ∧
    ∃ owner owner', owner ≠ owner' ∧ c.Meets models model owner ∧ c.Meets models model owner' ∧
      Asks (c.decl owner) model name ∧ Asks (c.decl owner') model name

variable {models : List String} {model name : String} {known known' : List String}

/-- A column that another model asks for has no member and is no key. -/
theorem findSome?_askedColumn? {column : Column}
    (h : (known.map c.decl).findSome? (ModelDecl.askedColumn? model name) = some column) :
    column.name = name ∧ column.member = none ∧ column.isKey = false := by
  obtain ⟨owner, -, hasked⟩ := List.exists_of_findSome?_eq_some h
  obtain ⟨_, _, _, _, _, _, -, -, -, -, rfl⟩ := ModelDecl.askedColumn?_eq_some.mp hasked
  exact ⟨rfl, rfl, rfl⟩

/-- Where one model at most asks for a column, the order of the models does not matter. -/
theorem findSome?_askedColumn?_congr (hknown : ∀ m, m ∈ known ↔ m ∈ known')
    (single : ∀ owner ∈ known, ∀ owner' ∈ known, Asks (c.decl owner) model name →
      Asks (c.decl owner') model name → owner = owner') :
    (known.map c.decl).findSome? (ModelDecl.askedColumn? model name) =
      (known'.map c.decl).findSome? (ModelDecl.askedColumn? model name) := by
  rw [List.findSome?_map, List.findSome?_map]
  refine findSome?_congr_of_unique hknown fun owner howner owner' howner' hasks hasks' => ?_
  exact single owner howner owner' howner' (isSome_askedColumn?_iff.mp hasks)
    (isSome_askedColumn?_iff.mp hasks')

theorem agreesUpTo_withIncoming {d : Descriptor} (hd : c.describeAlone model = .ok d)
    (hknown : ∀ m, m ∈ known ↔ c.Meets models model m)
    (hknown' : ∀ m, m ∈ known' ↔ c.Meets models model m) {a b : Column}
    (ha : a ∈ c.withIncoming model known d.columns)
    (hb : b ∈ c.withIncoming model known' d.columns) (hname : a.name = b.name) :
    a.AgreesUpTo (c.Contested models model) b := by
  obtain ⟨distinct, hnames⟩ := describeAlone_eq_ok hd
  have hfound := columnNamed?_of_mem (nodup_names_withIncoming distinct) ha
  have hfound' := columnNamed?_of_mem (nodup_names_withIncoming distinct) hb
  rw [columnNamed?_withIncoming] at hfound hfound'
  rw [← hname] at hfound'
  cases hown : columnNamed? d.columns a.name with
  | some own =>
    rw [hown, Option.some_or] at hfound hfound'
    cases hfound
    cases hfound'
    exact ⟨rfl, rfl, rfl, fun _ => rfl⟩
  | none =>
    rw [hown, Option.none_or] at hfound hfound'
    obtain ⟨-, hmember, hkey⟩ := findSome?_askedColumn? hfound
    obtain ⟨-, hmember', hkey'⟩ := findSome?_askedColumn? hfound'
    refine ⟨hname, by rw [hmember, hmember'], by rw [hkey, hkey'], fun hcontested => ?_⟩
    have hfield : ∀ f ∈ (c.decl model).fields, f.columnName? ≠ some a.name := by
      intro f hf hstored
      obtain ⟨own, hsome⟩ := exists_columnNamed?.mpr ((hnames a.name).mpr ⟨f, hf, hstored⟩)
      rw [hown] at hsome
      cases hsome
    have hsingle : ∀ owner ∈ known, ∀ owner' ∈ known, Asks (c.decl owner) model a.name →
        Asks (c.decl owner') model a.name → owner = owner' := by
      intro owner howner owner' howner' hasks hasks'
      by_contra hne
      exact hcontested ⟨hfield, owner, owner', hne, (hknown owner).mp howner,
        (hknown owner').mp howner', hasks, hasks'⟩
    have hsame := findSome?_askedColumn?_congr (fun m => (hknown m).trans (hknown' m).symm) hsingle
    rw [hfound, hfound'] at hsame
    exact Option.some.inj hsame

/-- Descriptions of a model for the same registrations fail alike, or their descriptors agree. -/
theorem resolve_reordered {registered registered' : List String}
    (h : ∀ m, m ∈ registered ↔ m ∈ registered') (model : String) :
    (∃ e, c.resolve registered model = .error e ∧ c.resolve registered' model = .error e) ∨
    ∃ d d', c.resolve registered model = .ok d ∧ c.resolve registered' model = .ok d' ∧
      d.AgreesUpTo (c.Contested registered model) d' := by
  have hknown : ∀ m, m ∈ c.known registered model ↔ c.Meets registered model m :=
    fun m => mem_known_iff
  have hknown' : ∀ m, m ∈ c.known registered' model ↔ c.Meets registered model m := by
    intro m
    rw [mem_known_iff, Meets]
    simp only [h]
  rw [resolve_eq_describeAlone, resolve_eq_describeAlone]
  cases hd : c.describeAlone model with
  | error e => exact Or.inl ⟨e, rfl, rfl⟩
  | ok d =>
    obtain ⟨distinct, -⟩ := describeAlone_eq_ok hd
    refine Or.inr ⟨_, _, rfl, rfl, rfl, rfl, rfl, rfl, rfl, ?_⟩
    refine exists_perm_forall₂ Column.name (nodup_names_withIncoming distinct)
      (nodup_names_withIncoming distinct) (fun name => ?_) fun a ha b hb =>
        agreesUpTo_withIncoming hd hknown hknown' ha hb
    rw [mem_names_withIncoming, mem_names_withIncoming]
    simp only [hknown, hknown']

/-- A contested column is the one that is asked for by the model that is met first. -/
theorem findSome?_of_contested {registered : List String} {d : Descriptor}
    (h : c.resolve registered model = .ok d) {column : Column} (hcolumn : column ∈ d.columns)
    (hcontested : c.Contested models model column.name) :
    ((c.known registered model).map c.decl).findSome?
      (ModelDecl.askedColumn? model column.name) = some column := by
  rcases bound_cases h hcolumn with ⟨⟨f, hf, hstored⟩, -⟩ | ⟨-, hfirst⟩
  · exact absurd hstored (hcontested.1 f hf)
  · exact hfirst

end Catalogue

namespace Registry

/-- A fresh registry in which only registrations were made. -/
theorem answer_describe_registered (c : Catalogue) (models : List String) (model : String) :
    answer c (models.map .register) (.describe model) =
      .described (c.resolve models.eraseDups model) := by
  have hnever : ∀ d, ¬Gave c (models.map .register) model d := by
    rintro d ⟨before, q, later, hsplit, hasked, -⟩
    have hq : q ∈ models.map Request.register := by
      rw [hsplit]
      exact List.mem_append_right before List.mem_cons_self
    obtain ⟨m, -, rfl⟩ := List.mem_map.mp hq
    cases hasked
  have hregistered : registrations (models.map .register) = models.eraseDups := by
    rw [registrations, List.filterMap_map]
    exact congrArg List.eraseDups List.filterMap_some
  rw [answer, answer_describe, descriptor_of_not_gave hnever, hregistered]

/-- Registering the same models in another order, before anything is described, makes descriptions
fail alike.  Where they succeed the descriptors have the same relations, the same references and the
same columns up to their order, but for foreign keys that collections of several models name: each
of these is the one of the model that is met first. -/
theorem describe_reordered (c : Catalogue) {models models' : List String}
    (h : models.Perm models') (model : String) :
    (∃ e, answer c (models.map .register) (.describe model) = .described (.error e) ∧
      answer c (models'.map .register) (.describe model) = .described (.error e)) ∨
    ∃ d d', answer c (models.map .register) (.describe model) = .described (.ok d) ∧
      answer c (models'.map .register) (.describe model) = .described (.ok d') ∧
      d.AgreesUpTo (c.Contested models model) d' ∧
      ((∀ name, ¬c.Contested models model name) → d.columns.Perm d'.columns) ∧
      ∀ column ∈ d.columns, c.Contested models model column.name →
        ((c.known models.eraseDups model).map c.decl).findSome?
          (ModelDecl.askedColumn? model column.name) = some column := by
  have hsame : ∀ m, m ∈ models.eraseDups ↔ m ∈ models'.eraseDups := fun m => by
    rw [List.mem_eraseDups, List.mem_eraseDups, h.mem_iff]
  have hcontested : c.Contested models.eraseDups model = c.Contested models model := by
    funext name
    simp only [Catalogue.Contested, Catalogue.Meets, List.mem_eraseDups]
  rw [answer_describe_registered, answer_describe_registered]
  rcases c.resolve_reordered hsame model with ⟨e, he, he'⟩ | ⟨d, d', hd, hd', hagrees⟩
  · exact Or.inl ⟨e, by rw [he], by rw [he']⟩
  · rw [hcontested] at hagrees
    exact Or.inr ⟨d, d', by rw [hd], by rw [hd'], hagrees, hagrees.perm,
      fun column => Catalogue.findSome?_of_contested hd⟩

/-! ### Two owners of one foreign key -/

/-- Authors and guilds both own books, by a foreign key of one name and keys of two types. -/
def rivals : Catalogue where
  models := [
    ⟨"Author", "Authors", "id", [⟨"id", .column .i64 (some "id") none, false⟩,
      ⟨"books", .hasMany "Book" (some "owner_id") none, false⟩]⟩,
    ⟨"Guild", "Guilds", "id", [⟨"id", .column .string (some "id") none, false⟩,
      ⟨"books", .hasMany "Book" (some "owner_id") none, false⟩]⟩,
    ⟨"Book", "Books", "id", [⟨"id", .column .i64 (some "id") none, false⟩]⟩]

/-- A book with an owner. -/
def ownedBook (ty : ColumnType) (owner : Binding) : Descriptor :=
  ⟨"Book", "Books", "id", [⟨"id", some "id", .i64, none, true⟩,
    ⟨"owner_id", none, ty, some owner, false⟩], [], []⟩

theorem describe_reordered_rivals :
    ["Author", "Guild"].Perm ["Guild", "Author"] ∧ ∃ d d',
      answer rivals (["Author", "Guild"].map .register) (.describe "Book") = .described (.ok d) ∧
      answer rivals (["Guild", "Author"].map .register) (.describe "Book") = .described (.ok d') ∧
      d.AgreesUpTo (rivals.Contested ["Author", "Guild"] "Book") d' := by
  have hperm : ["Author", "Guild"].Perm ["Guild", "Author"] := List.Perm.swap _ _ _
  refine ⟨hperm, ?_⟩
  rcases describe_reordered rivals hperm "Book" with ⟨e, he, -⟩ | ⟨d, d', hd, hd', hagrees, -⟩
  · have hbook : answer rivals (["Author", "Guild"].map .register) (.describe "Book") =
        .described (.ok (ownedBook .i64 ⟨"Author", "Authors", "id"⟩)) := by cbv
    rw [hbook] at he
    cases he
  · exact ⟨d, d', hd, hd', hagrees⟩

/-- A contested column does depend on the order. -/
theorem columns_rivals_not_perm :
    ["Author", "Guild"].Perm ["Guild", "Author"] ∧ ∃ d d',
      answer rivals (["Author", "Guild"].map .register) (.describe "Book") = .described (.ok d) ∧
      answer rivals (["Guild", "Author"].map .register) (.describe "Book") = .described (.ok d') ∧
      ¬d.columns.Perm d'.columns := by
  refine ⟨List.Perm.swap _ _ _, ownedBook .i64 ⟨"Author", "Authors", "id"⟩,
    ownedBook .string ⟨"Guild", "Guilds", "id"⟩, by cbv, by cbv, ?_⟩
  intro hperm
  have hmem := hperm.mem_iff (a := ⟨"owner_id", none, .i64, some ⟨"Author", "Authors", "id"⟩, false⟩)
  simp [ownedBook] at hmem

end Registry
end RowGraph
