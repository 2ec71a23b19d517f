import RowGraph.Proofs.Graph.Hydration
import RowGraph.Proofs.Lists

/-!
Collections that are joined more than once.

A selection can follow one collection of one parameter along several links, each with a name and a
condition of its own.  A record keeps what it relates to by collection, so of these links the last
one decides what is under the collection: the rows that it pairs are there, each once, and what the
links before it paired is gone.
-/

namespace RowGraph

/-- Whether the link pairs two rows. -/
def Link.isPairing (l : Link) (leftRow rightRow : Row) : Bool :=
  match l.pairs leftRow rightRow with
  | .ok paired => paired
  | .error _ => false

theorem Link.isPairing_of_pairs {l : Link} {leftRow rightRow : Row} {paired : Bool}
    (h : l.pairs leftRow rightRow = .ok paired) : l.isPairing leftRow rightRow = paired := by
  rw [isPairing, h]

/-- The last link from a parameter along a collection. -/
def Select.lastLink? (s : Select) (param member : String) : Option Link :=
  (s.linksFrom param).reverse.find? (·.member = member)

/-- The record is the other one or is somewhere below it. -/
inductive Record.Within : Record → Record → Prop
  | self (r : Record) : r.Within r
  | under {root b r : Record} {member : String} {records : List Record}
      (hrelated : root.related? member = some records) (hb : b ∈ records) (hr : r.Within b) :
      r.Within root

namespace Graph

variable {c : Catalogue} {s : Select} {t : Sql.AliasTable} {rows : List Row} {groups : Groups}
  {param : String} {row : Row} {found : Keyed String (List Record)} {l : Link} {r : Record}

/-- The rows that a link pairs with a row, with the parameter that they are kept for. -/
def partners (groups : Groups) (l : Link) (row : Row) : List (String × Row) :=
  ((groups.rows l.right).filter (l.isPairing row)).map (l.right, ·)

/-- What was found along a link for a row are the records of its partners. -/
structure Finds (groups : Groups) (row : Row) (l : Link) (entry : String × List Record) : Prop where
  member : entry.1 = l.member
  records : entry.2.map (fun b => (b.param, b.row)) = partners groups l row

/-- The record relates to what was found along each link from its parameter, and so does every
record that was found. -/
inductive Assembled (s : Select) (groups : Groups) : Record → Prop
  | intro {r : Record} (found : Keyed String (List Record)) (relations : r.relations = merged found)
      (links : List.Forall₂ (Finds groups r.row) (s.linksFrom r.param) found)
      (below : ∀ entry ∈ found, ∀ b ∈ entry.2, Assembled s groups b) : Assembled s groups r

/-! ## How records are made -/

theorem assembled_record (hlinks : List.Forall₂ (Finds groups row) (s.linksFrom param) found)
    (hbelow : ∀ entry ∈ found, ∀ b ∈ entry.2, Assembled s groups b)
    (h : record s.params param row (merged found) = .ok r) :
    (r.param, r.row) = (param, row) ∧ Assembled s groups r := by
  rw [record] at h
  split at h
  next =>
    cases h
    exact ⟨rfl, .intro found rfl hlinks hbelow⟩
  next => cases h

/-- What the links of a selection, from some link on, find for a row. -/
theorem finds_related (hs : s.WellFormed c) {before links : List Link}
    (hlinks : s.links = before ++ links) (h : related s.params groups links param row = .ok found) :
    List.Forall₂ (Finds groups row) (links.filter (·.left == param)) found ∧
      ∀ entry ∈ found, ∀ b ∈ entry.2, Assembled s groups b := by
  induction links generalizing before param row found with
  | nil =>
    cases h
    exact ⟨.nil, by simp⟩
  | cons link links ih =>
    have hrest : s.links = before ++ [link] ++ links := by rw [hlinks, List.append_cons]
    rw [related] at h
    split at h
    next hparam =>
      subst hparam
      obtain ⟨records, hrecords, h⟩ := Outcome.bind_eq_ok.mp h
      obtain ⟨further, hfurther, h⟩ := Outcome.bind_eq_ok.mp h
      cases h
      obtain ⟨hfinds, hassembled⟩ := ih hrest hfurther
      obtain ⟨hpartners, hbelow⟩ := Outcome.map_of_filterMapM (p := link.isPairing row)
        (Q := Assembled s groups) (fun b => (b.param, b.row)) (link.right, ·)
        (by
          intro candidate o ho
          obtain ⟨paired, hpaired, ho⟩ := Outcome.bind_eq_ok.mp ho
          rw [Link.isPairing_of_pairs hpaired]
          cases paired with
          | false =>
            cases ho
            exact Or.inl ⟨rfl, rfl⟩
          | true =>
            obtain ⟨below, hbelow, ho⟩ := Outcome.bind_eq_ok.mp ho
            obtain ⟨made, hmade, ho⟩ := Outcome.bind_eq_ok.mp ho
            cases ho
            obtain ⟨hfound, hall⟩ := ih hrest hbelow
            rw [← linksFrom_right hs hlinks] at hfound
            obtain ⟨hplace, hmade⟩ := assembled_record hfound hall hmade
            exact Or.inr ⟨made, rfl, rfl, hplace, hmade⟩) hrecords
      rw [List.filter_cons_of_pos (by simp)]
      exact ⟨.cons ⟨rfl, hpartners⟩ hfinds, List.forall_mem_cons.mpr ⟨hbelow, hassembled⟩⟩
    next hparam =>
      rw [List.filter_cons_of_neg (by simpa using hparam)]
      exact ih hrest h

theorem assembled_of_hydrate (hs : s.WellFormed c) {records : List Record}
    (h : hydrate s t rows = .ok records) :
    ∃ groups, Groups.ofRows s.params t rows = .ok groups ∧
      ∀ root ∈ records, Assembled s groups root := by
  obtain ⟨groups, hgroups, h⟩ := Outcome.bind_eq_ok.mp h
  refine ⟨groups, hgroups, ?_⟩
  intro root hroot
  obtain ⟨row, -, hrow⟩ := Outcome.exists_of_mem_mapM h hroot
  obtain ⟨found, hfound, hrecord⟩ := Outcome.bind_eq_ok.mp hrow
  have hlinks : s.links = [] ++ s.links := rfl
  obtain ⟨hfinds, hbelow⟩ := finds_related hs hlinks hfound
  exact (assembled_record hfinds hbelow hrecord).2

/-! ## What a record relates to -/

theorem related?_eq (h : r.relations = merged found) (member : String) :
    r.related? member = (found.reverse.find? (·.1 = member)).map Prod.snd := by
  rw [Record.related?, h, merged, Keyed.find?_foldl_put]
  exact Option.or_none

theorem Assembled.within {root : Record} (h : r.Within root) (hroot : Assembled s groups root) :
    Assembled s groups r := by
  induction h with
  | self => exact hroot
  | @under root b r member records hrelated hb _ ih =>
    obtain ⟨found, hrelations, -, hbelow⟩ := hroot
    rw [related?_eq hrelations, Option.map_eq_some_iff] at hrelated
    obtain ⟨entry, hentry, rfl⟩ := hrelated
    exact ih (hbelow entry (List.mem_reverse.mp (List.mem_of_find?_eq_some hentry)) b hb)

/-- Under a collection are the partners along the last link that follows it. -/
theorem Assembled.related?_eq_lastLink? (h : Assembled s groups r) (member : String) :
    (r.related? member).map (List.map fun b => (b.param, b.row)) =
      (s.lastLink? r.param member).map fun l => partners groups l r.row := by
  obtain ⟨found, hrelations, hlinks, -⟩ := h
  rw [related?_eq hrelations, Option.map_map]
  refine (map_find?_of_forall₂ (List.rel_reverse hlinks) ?_ ?_).symm
  · intro l entry hfinds
    rw [hfinds.member]
  · exact fun l entry hfinds => hfinds.records.symm

/-- Along a collection that some link follows, some link is the last one. -/
theorem exists_lastLink? (hl : l ∈ s.linksFrom param) :
    ∃ last, s.lastLink? param l.member = some last ∧ last ∈ s.linksFrom param := by
  cases hlast : s.lastLink? param l.member with
  | none =>
    rw [Select.lastLink?, List.find?_eq_none] at hlast
    exact absurd (by simp) (hlast l (List.mem_reverse.mpr hl))
  | some last => exact ⟨last, rfl, List.mem_reverse.mp (List.mem_of_find?_eq_some hlast)⟩

/-- Under every collection that a link follows from its parameter, a record has the rows that the
last such link pairs with its own, in the order in which they were kept.  A row that some link pairs
with that of the record is thus there, as one of the parameter of the link, exactly when no further
link follows the collection. -/
theorem hydrate_related (h : s.Reached c) {records : List Record}
    (hrecords : hydrate s t rows = .ok records) :
    ∃ groups, Groups.ofRows s.params t rows = .ok groups ∧
      ∀ root ∈ records, ∀ r : Record, r.Within root → ∀ l ∈ s.linksFrom r.param,
        ∃ last below, s.lastLink? r.param l.member = some last ∧
          r.related? l.member = some below ∧
          below.map (fun b => (b.param, b.row)) = partners groups last r.row ∧
          ∀ row ∈ groups.rows l.right, l.pairs r.row row = .ok true →
            ((∃ b ∈ below, b.param = l.right ∧ b.row = row) ↔ last = l) := by
  have hs := h.wellFormed
  obtain ⟨groups, hgroups, hassembled⟩ := assembled_of_hydrate hs hrecords
  refine ⟨groups, hgroups, ?_⟩
  intro root hroot r hr l hl
  have hrelated := (Assembled.within hr (hassembled root hroot)).related?_eq_lastLink? l.member
  obtain ⟨last, hlast, hmem⟩ := exists_lastLink? hl
  rw [hlast, Option.map_some, Option.map_eq_some_iff] at hrelated
  obtain ⟨below, hbelow, hpartners⟩ := hrelated
  refine ⟨last, below, hlast, hbelow, hpartners, ?_⟩
  intro row hrow hpairs
  constructor
  · rintro ⟨b, hb, hparam, -⟩
    have hplace : (b.param, b.row) ∈ partners groups last r.row := by
      rw [← hpartners]
      exact List.mem_map_of_mem hb
    obtain ⟨row', -, hplace⟩ := List.mem_map.mp hplace
    injection hplace with hright _
    exact hs.eq_of_right_eq (List.mem_filter.mp hmem).1 (List.mem_filter.mp hl).1
      (hright.trans hparam)
  · rintro rfl
    have hplace : (last.right, row) ∈ partners groups last r.row := by
      refine List.mem_map_of_mem (List.mem_filter.mpr ⟨hrow, ?_⟩)
      exact Link.isPairing_of_pairs hpairs
    rw [← hpartners] at hplace
    obtain ⟨b, hb, hplace⟩ := List.mem_map.mp hplace
    injection hplace with hparam hrow
    exact ⟨b, hb, hparam, hrow⟩

/-! ### A row that is lost -/

/-- The books of an author with small keys, or with large ones. -/
def booksWhere (op : Operator) : Expr :=
  .and (.eq (.member (.ofModel "Author" ["id"])) (.member (.ofModel "Book" ["writer"])))
    (.binary op (.member (.ofModel "Book" ["id"])) (.value (.i64 8)))

def booksLink (op : Operator) (right : String) : Link where
  left := "x"
  right := right
  member := "books"
  target := "Book"
  foreignKey := "writer_id"
  primaryKey := "id"
  condition := .and (.eq (.member "x" "id") (.member right "writer_id"))
    (.binary op (.member right "id") (.constant (.i64 8)))

def oldLink : Link := booksLink .lt "old"

def newLink : Link := booksLink .ge "new"

def author : Descriptor :=
  ⟨"Author", "Authors", "id", [⟨"id", some "id", .i64, none, true⟩],
    [⟨"books", "Book", none, some "writer_id", "id"⟩], []⟩

def book : Descriptor :=
  ⟨"Book", "Books", "id", [⟨"id", some "id", .i64, none, true⟩,
    ⟨"writer_id", some "writer", .i64, none, false⟩], [], []⟩

/-- Authors with their old books, and with their new ones along the same collection. -/
def oldAndNew : Select where
  params := ⟨[("x", author), ("old", book), ("new", book)], some "x"⟩
  filter := none
  links := [oldLink, newLink]
  projection := none

theorem reached_oldAndNew : oldAndNew.Reached library := by
  have hbuild : Select.build (.ofCatalogue library) "Author" none
      [.join ⟨"books", none, some "old", some (booksWhere .lt)⟩,
        .join ⟨"books", none, some "new", some (booksWhere .ge)⟩] = .ok oldAndNew := by cbv
  exact Select.reached_build .fresh hbuild

def oldAndNewAliases : Sql.AliasTable :=
  ⟨[("x", "id"), ("old", "id"), ("old", "writer_id"), ("new", "id"), ("new", "writer_id")]⟩

/-- An author with an old book and a new one. -/
def oldAndNewRows : List Row :=
  [.ofList [("_c0", .i64 1), ("_c1", .i64 7), ("_c2", .i64 1), ("_c3", .i64 8), ("_c4", .i64 1)]]

def authorRow : Row := .ofList [("id", .i64 1)]

def bookRow (key : Int64) : Row := .ofList [("id", .i64 key), ("writer_id", .i64 1)]

def oldAndNewGroups : Groups :=
  [("x", [(.int 1, authorRow)]), ("old", [(.int 7, bookRow 7)]), ("new", [(.int 8, bookRow 8)])]

/-- The author has the new book alone. -/
def authorRecord : Record :=
  ⟨author, "x", authorRow, [("books", [⟨book, "new", bookRow 8, []⟩])]⟩

theorem ofRows_oldAndNew :
    Groups.ofRows oldAndNew.params oldAndNewAliases oldAndNewRows = .ok oldAndNewGroups := by
  cbv

theorem hydrate_oldAndNew :
    hydrate oldAndNew oldAndNewAliases oldAndNewRows = .ok [authorRecord] := by
  cbv

theorem pairs_oldLink : oldLink.pairs authorRow (bookRow 7) = .ok true := by
  cbv

theorem not_all_partners_related :
    ¬∀ c s, Select.Reached c s → ∀ t rows groups records,
      Groups.ofRows s.params t rows = .ok groups → hydrate s t rows = .ok records →
        ∀ root ∈ records, ∀ r : Record, r.Within root → ∀ l ∈ s.linksFrom r.param,
          ∀ row ∈ groups.rows l.right, l.pairs r.row row = .ok true →
            ∃ below, r.related? l.member = some below ∧ ∃ b ∈ below, b.row = row := by
  intro h
  obtain ⟨below, hbelow, b, hb, hrow⟩ := h library oldAndNew reached_oldAndNew oldAndNewAliases
    oldAndNewRows oldAndNewGroups [authorRecord] ofRows_oldAndNew hydrate_oldAndNew authorRecord
    List.mem_cons_self authorRecord (.self _) oldLink List.mem_cons_self (bookRow 7)
    List.mem_cons_self pairs_oldLink
  cases hbelow
  rw [List.mem_singleton] at hb
  subst hb
  have hkeys : (bookRow 8).get "id" = (bookRow 7).get "id" := congrArg (Row.get · "id") hrow
  rw [show (bookRow 8).get "id" = .i64 8 by cbv, show (bookRow 7).get "id" = .i64 7 by cbv] at hkeys
  exact absurd hkeys (by decide)

theorem hydrate_related_oldAndNew :
    oldAndNew.Reached library ∧
      hydrate oldAndNew oldAndNewAliases oldAndNewRows = .ok [authorRecord] ∧
      ∃ below, authorRecord.related? "books" = some below ∧
        (∃ b ∈ below, b.param = "new" ∧ b.row = bookRow 8) ∧
        ¬∃ b ∈ below, b.param = "old" ∧ b.row = bookRow 7 := by
  obtain ⟨groups, hgroups, hall⟩ := hydrate_related reached_oldAndNew hydrate_oldAndNew
  cases ofRows_oldAndNew.symm.trans hgroups
  have hlast : oldAndNew.lastLink? "x" "books" = some newLink := by cbv
  have hnew : newLink.pairs authorRow (bookRow 8) = .ok true := by cbv
  obtain ⟨last, below, hlast', hbelow, -, hlost⟩ := hall authorRecord List.mem_cons_self
    authorRecord (.self _) oldLink List.mem_cons_self
  obtain ⟨last', below', hlast'', hbelow', -, hkept⟩ := hall authorRecord List.mem_cons_self
    authorRecord (.self _) newLink (List.mem_cons_of_mem _ List.mem_cons_self)
  cases hlast.symm.trans hlast'
  cases hlast.symm.trans hlast''
  cases hbelow.symm.trans hbelow'
  refine ⟨reached_oldAndNew, hydrate_oldAndNew, below, hbelow, ?_, ?_⟩
  · exact (hkept (bookRow 8) List.mem_cons_self hnew).mpr rfl
  · intro hfound
    have heq := (hlost (bookRow 7) List.mem_cons_self pairs_oldLink).mp hfound
    exact absurd (congrArg Link.right heq) (by decide)

end Graph
end RowGraph
