import Mathlib
import RowGraph.Proofs.Repository.Table
import RowGraph.Proofs.Repository.Written

/-!
Instances and their rows.

An instance is made new or loaded; then its fields are set, and it is stored, in any order and as
often as one likes.  What was set and is not stored yet is marked, so that at every time the row of
the instance agrees with it except where a mark stands, and storing brings the two together.
-/

namespace RowGraph

/-! ## What is asked of instances -/

/-- Storing a generated key changes the key column alone, and changes are kept apart from rows. -/
structure Mapping.Lawful {ε : Type} (m : Mapping ε) (d : Descriptor) : Prop where
  assigns : ∀ (e : ε) (value key : Value), value.isNull = false →
    value.convert d.keyColumn.ty = .ok key →
    ∃ e', m.assignKey e key = .ok e' ∧ (m.toRow e').get? d.primaryKey = some key ∧
      ∀ name, Text.fold name ≠ Text.fold d.primaryKey →
        (m.toRow e').get? name = (m.toRow e).get? name
  toRow_withChanges : ∀ e changes, m.toRow (m.withChanges e changes) = m.toRow e
  changes_withChanges : ∀ e changes, m.changes (m.withChanges e changes) = changes

/-- A change of one field, stored in a column that is not the key, and its mark. -/
structure Mapping.Sets {ε : Type} (m : Mapping ε) (d : Descriptor) (decl : ModelDecl)
    (f : FieldDecl) (column : String) (e e' : ε) : Prop where
  stored : decl.Stored f column
  notKey : column ≠ d.primaryKey
  supplied : (m.toRow e').contains column = true
  others : ∀ name, Text.fold name ≠ Text.fold column →
    (m.toRow e').get? name = (m.toRow e).get? name
  marks : m.changes e' = (m.changes e).mark f.name

/-- None of the fields stored in the column has changed. -/
def ModelDecl.Clean (decl : ModelDecl) (changes : ChangeSet) (column : String) : Prop :=
  ∀ f, decl.Stored f column → changes.isDirty f.name = false

/-- The row of the table under the key of a row agrees with it on those of the columns that fields
are stored in that `P` picks. -/
def Table.Agrees {σ κ : Type} (tb : Table σ κ) (d : Descriptor) (decl : ModelDecl)
    (P : String → Prop) (row : Row) (s : σ) (k : κ) : Prop :=
  tb.ident (row.get d.primaryKey) = some k ∧ ∃ stored, tb.row? s k = some stored ∧
    ∀ f column, decl.Stored f column → P column → tb.Holds stored column (row.get column)

/-- The instances and states that a program can come to have, from a state in which an instance is
made new or loaded, by setting fields and storing. -/
inductive Runner.Reached {σ κ ε : Type} (run : Runner σ) (tb : Table σ κ) (m : Mapping ε)
    (d : Descriptor) (decl : ModelDecl) (start : σ) : ε → σ → Prop
  | made {e : ε} (new : m.changes e = .fresh) (supplied : decl.Supplied (m.toRow e)) :
      Reached run tb m d decl start e start
  | loaded {e : ε} {k : κ} (old : m.changes e = .loaded) (supplied : decl.Supplied (m.toRow e))
      (agrees : tb.Agrees d decl (fun _ => True) (m.toRow e) start k) :
      Reached run tb m d decl start e start
  | set {e e' : ε} {s : σ} {f : FieldDecl} {column : String}
      (h : Reached run tb m d decl start e s) (hset : m.Sets d decl f column e e') :
      Reached run tb m d decl start e' s
  | stored {e e' : ε} {s s' : σ} {registry : Registry} (h : Reached run tb m d decl start e s)
      (described : registry.descriptor m.model = .ok d)
      (hstore : run.store registry m e s = (.ok e', s')) : Reached run tb m d decl start e' s'
  | refused {e : ε} {s s' : σ} {registry : Registry} {err : Error}
      (h : Reached run tb m d decl start e s) (described : registry.descriptor m.model = .ok d)
      (hstore : run.store registry m e s = (.error err, s')) : Reached run tb m d decl start e s'

/-! ## Marks and columns -/

theorem ChangeSet.isDirty_mark_iff {changes : ChangeSet} {field other : String} :
    (changes.mark field).isDirty other = true ↔ changes.isDirty other = true ∨ other = field := by
  rw [mark]
  split
  next h =>
    constructor
    · exact Or.inl
    · rintro (hother | rfl)
      · exact hother
      · exact h
  next => simp [isDirty]

theorem ChangeSet.isNew_mark (changes : ChangeSet) (field : String) :
    (changes.mark field).isNew = changes.isNew := by
  rw [mark]
  split <;> rfl

theorem Row.get_congr {row row' : Row} {name : String} (h : row'.get? name = row.get? name) :
    row'.get name = row.get name := by
  rw [Row.get, Row.get, h]

theorem Row.contains_congr {row row' : Row} {name : String} (h : row'.get? name = row.get? name) :
    row'.contains name = row.contains name := by
  rw [Row.contains, Row.contains, h]

section Tracking

variable {σ κ ε : Type} {run : Runner σ} {tb : Table σ κ} {m : Mapping ε} {c : Catalogue}
variable {registered : List String} {d : Descriptor} {start s s' : σ} {e e' : ε}

/-- What holds of an instance and the state beside it, all the time. -/
structure Mapping.Kept (tb : Table σ κ) (m : Mapping ε) (d : Descriptor) (decl : ModelDecl)
    (start : σ) (e : ε) (s : σ) : Prop where
  supplied : decl.Supplied (m.toRow e)
  dirty : ∀ field, (m.changes e).isDirty field = true →
    ∃ f column, decl.Stored f column ∧ f.name = field ∧ column ≠ d.primaryKey
  untouched : (m.changes e).isNew = true → tb.row? s = tb.row? start
  agrees : (m.changes e).isNew = false → ∃ k,
    tb.Agrees d decl (decl.Clean (m.changes e)) (m.toRow e) s k ∧ tb.SameBut k start s

/-! ## The statements of a store -/

theorem generatedKey_of_generates {answer : List Row} {key : Value}
    (h : Table.Generates d answer key) : d.generatedKey answer = .ok key := by
  obtain ⟨first, name, value, hfirst, hentry, hnull, hconvert⟩ := h
  rw [Descriptor.generatedKey, hfirst, Option.bind_some, hentry]
  dsimp only
  rw [if_neg (by simp [hnull]), hconvert]

theorem isInsertion_ofRow (resolved : c.resolve registered m.model = .ok d)
    (names : d.NamesDistinct) (row : Row) : Table.IsInsertion d (Insert.ofRow d row)
      ((Insert.columnsFor d row).map row.get) where
  target := rfl
  rows := rfl
  length := List.length_map _
  key := (Insert.primaryKey_mem_columnsFor resolved names).mpr
  distinct := by
    have hcolumns : ((Insert.columnsFor d row).map Text.fold).Nodup :=
      Insert.nodup_columnsFor names
    show DistinctColumns (if Insert.lacksKey d row then
      d.primaryKey :: Insert.columnsFor d row else Insert.columnsFor d row)
    split
    next hlacks =>
      refine List.nodup_cons.mpr ⟨?_, hcolumns⟩
      intro hmem
      obtain ⟨column, hcolumn, hfold⟩ := List.mem_map.mp hmem
      by_cases heq : column = d.primaryKey
      · rw [heq, Insert.primaryKey_mem_columnsFor resolved names, hlacks] at hcolumn
        cases hcolumn
      · obtain ⟨found, hfound, hname, -⟩ := Insert.mem_columnsFor.mp hcolumn
        exact Descriptor.fold_ne names (hname ▸ List.mem_map_of_mem hfound)
          (Catalogue.primaryKey_mem_names resolved) heq hfold
    next => exact hcolumns

theorem isUpdate_of_assigns (resolved : c.resolve registered m.model = .ok d)
    (names : d.NamesDistinct) {row : Row} {dirty : List String}
    {assignments : Keyed String Value} (h : Update.Assigns d row dirty assignments)
    (columns : ∀ a ∈ assignments, a.1 ∈ d.columns.map Column.name) :
    Table.IsUpdate d ⟨d, [⟨row.get d.primaryKey, assignments⟩]⟩ (row.get d.primaryKey)
      assignments where
  target := rfl
  rows := rfl
  distinct := by
    have hkeys : ∀ column ∈ d.primaryKey :: assignments.keys,
        column ∈ d.columns.map Column.name := by
      refine List.forall_mem_cons.mpr ⟨Catalogue.primaryKey_mem_names resolved, ?_⟩
      intro column hcolumn
      obtain ⟨a, ha, rfl⟩ := List.mem_map.mp hcolumn
      exact columns a ha
    refine List.Nodup.map_on ?_ (List.nodup_cons.mpr ⟨?_, h.distinct⟩)
    · intro a ha b hb hfold
      by_contra hne
      exact Descriptor.fold_ne names (hkeys a ha) (hkeys b hb) hne hfold
    · intro hmem
      obtain ⟨a, ha, hkey⟩ := List.mem_map.mp hmem
      exact (h.sound a ha).1 hkey

/-- An insertion of an instance is refused, or it brings a row that agrees with the instance, the
generated key included. -/
theorem insertNew_cases (resolved : c.resolve registered m.model = .ok d)
    (names : d.NamesDistinct) (lawful : m.Lawful d) (faithful : tb.Faithful d run)
    (supplied : (c.decl m.model).Supplied (m.toRow e)) {outcome : Outcome ε}
    (h : run.insertNew m d e s = (outcome, s')) :
    (∃ err, outcome = .error err ∧ tb.row? s' = tb.row? s) ∨
    ∃ e' k, outcome = .ok e' ∧ (c.decl m.model).Supplied (m.toRow e') ∧
      tb.Agrees d (c.decl m.model) (fun _ => True) (m.toRow e') s' k ∧ tb.SameBut k s s' := by
  have hinsertion := isInsertion_ofRow resolved names (m.toRow e)
  rw [Runner.insertNew] at h
  split at h
  next err s₁ hrun =>
    cases h
    exact Or.inl ⟨err, rfl, faithful.refuses _ _ _ _ hrun⟩
  next answer s₁ hrun =>
    obtain ⟨k, row, hinserted⟩ := faithful.inserts _ _ _ _ _ hinsertion hrun
    -- What is inserted under a column is the value that the instance has there.
    have hholds : ∀ f column, (c.decl m.model).Stored f column →
        (column = d.primaryKey → Insert.lacksKey d (m.toRow e) = false) →
        tb.Holds row column ((m.toRow e).get column) := by
      intro f column hstored hkey
      have hcolumn := Insert.mem_columnsFor_of_contains resolved
        (Catalogue.mem_names_of_field resolved hstored.1 hstored.2)
        (supplied f column hstored) hkey
      exact hinserted.holds column _ (Insert.mem_cells.mpr ⟨hcolumn, rfl⟩)
    right
    by_cases hlacks : Insert.lacksKey d (m.toRow e) = true
    · obtain ⟨key, hgenerates, hident, hkey⟩ := hinserted.generated hlacks
      have hgenerated := generatedKey_of_generates hgenerates
      obtain ⟨-, -, value, -, -, hnull, hconvert⟩ := hgenerates
      obtain ⟨e₁, hassign, hprimary, hothers⟩ := lawful.assigns e value key hnull hconvert
      have hfinal : (m.assignKey e key, s₁) = (outcome, s') := by
        rw [← h, if_pos (show (Insert.ofRow d (m.toRow e)).returningKey = true from hlacks),
          hgenerated]
        rfl
      rw [hassign] at hfinal
      cases hfinal
      have hget : (m.toRow e₁).get d.primaryKey = key := by rw [Row.get, hprimary]; rfl
      have hrest : ∀ f column, (c.decl m.model).Stored f column → column ≠ d.primaryKey →
          (m.toRow e₁).get? column = (m.toRow e).get? column := by
        intro f column hstored hne
        exact hothers column (Descriptor.fold_ne names
          (Catalogue.mem_names_of_field resolved hstored.1 hstored.2)
          (Catalogue.primaryKey_mem_names resolved) hne)
      refine ⟨e₁, k, rfl, ?_, ⟨hget ▸ hident, row, hinserted.present, ?_⟩, hinserted.elsewhere⟩
      · intro f column hstored
        by_cases hne : column = d.primaryKey
        · rw [hne, Row.contains, hprimary]
          rfl
        · rw [Row.contains_congr (hrest f column hstored hne)]
          exact supplied f column hstored
      · intro f column hstored _
        by_cases hne : column = d.primaryKey
        · rw [hne, hget]
          exact hkey
        · rw [Row.get_congr (hrest f column hstored hne)]
          exact hholds f column hstored fun heq => absurd heq hne
    · rw [if_neg (show ¬(Insert.ofRow d (m.toRow e)).returningKey = true from hlacks)] at h
      cases h
      have hgiven : Insert.lacksKey d (m.toRow e) = false := Bool.eq_false_iff.mpr hlacks
      have hprimary := (Insert.primaryKey_mem_columnsFor resolved names).mpr hgiven
      refine ⟨e, k, rfl, supplied, ⟨?_, row, hinserted.present, ?_⟩, hinserted.elsewhere⟩
      · exact hinserted.given _ (Insert.mem_cells.mpr ⟨hprimary, rfl⟩)
      · intro f column hstored _
        exact hholds f column hstored fun _ => hgiven

/-- A column that is not assigned is clean, unless it is the key. -/
theorem clean_of_not_assigned (resolved : c.resolve registered m.model = .ok d)
    (distinct : ((c.decl m.model).fields.map (·.name)).Nodup)
    (kept : m.Kept tb d (c.decl m.model) start e s) {assignments : Keyed String Value}
    (h : Update.Assigns d (m.toRow e) (m.changes e).dirty assignments) {column : String}
    (hcolumn : column ∉ assignments.keys) : (c.decl m.model).Clean (m.changes e) column := by
  intro f hstored
  by_contra hdirty
  have hmark : (m.changes e).isDirty f.name = true := by simpa using hdirty
  obtain ⟨g, other, hother, hname, hne⟩ := kept.dirty f.name hmark
  have hgf := eq_of_name_eq distinct hother.1 hstored.1 hname
  subst hgf
  have hsame : other = column := Option.some.inj (hother.2.symm.trans hstored.2)
  subst hsame
  exact hcolumn (h.complete g.name (by simpa [ChangeSet.isDirty] using hmark) other
    (storage?_of_stored resolved distinct hstored) hne)

theorem assigned_mem_names (resolved : c.resolve registered m.model = .ok d)
    (distinct : ((c.decl m.model).fields.map (·.name)).Nodup)
    (kept : m.Kept tb d (c.decl m.model) start e s) {assignments : Keyed String Value}
    (h : Update.Assigns d (m.toRow e) (m.changes e).dirty assignments) :
    ∀ a ∈ assignments, a.1 ∈ d.columns.map Column.name := by
  intro a ha
  obtain ⟨-, -, field, hfield, hstorage⟩ := h.sound a ha
  obtain ⟨f, column, hstored, rfl, -⟩ := kept.dirty field
    (by simpa [ChangeSet.isDirty] using hfield)
  rw [storage?_of_stored resolved distinct hstored] at hstorage
  rw [← Option.some.inj hstorage]
  exact Catalogue.mem_names_of_field resolved hstored.1 hstored.2

/-- A row that agrees with an instance where it is clean agrees with it everywhere once the
assignments are carried out. -/
theorem agrees_of_updated (resolved : c.resolve registered m.model = .ok d)
    (names : d.NamesDistinct) (distinct : ((c.decl m.model).fields.map (·.name)).Nodup)
    (kept : m.Kept tb d (c.decl m.model) start e s) {assignments : Keyed String Value}
    (hassigns : Update.Assigns d (m.toRow e) (m.changes e).dirty assignments) {k : κ}
    (agrees : tb.Agrees d (c.decl m.model) ((c.decl m.model).Clean (m.changes e)) (m.toRow e) s k)
    (h : tb.Updated assignments s s' k) :
    tb.Agrees d (c.decl m.model) (fun _ => True) (m.toRow e) s' k := by
  obtain ⟨hident, stored, hpresent, hclean⟩ := agrees
  obtain ⟨stored', hpresent', hassigned, hkept⟩ := h.changed stored hpresent
  refine ⟨hident, stored', hpresent', ?_⟩
  intro f column hstored _
  by_cases hcolumn : column ∈ assignments.keys
  · obtain ⟨a, ha, rfl⟩ := List.mem_map.mp hcolumn
    rw [← (hassigns.sound a ha).2.1]
    exact hassigned a ha
  · obtain ⟨value, hvalue, hagree⟩ := hclean f column hstored
      (clean_of_not_assigned resolved distinct kept hassigns hcolumn)
    refine ⟨value, ?_, hagree⟩
    rw [← hvalue]
    refine hkept column fun a ha => ?_
    refine Descriptor.fold_ne names (assigned_mem_names resolved distinct kept hassigns a ha)
      (Catalogue.mem_names_of_field resolved hstored.1 hstored.2) ?_
    rintro rfl
    exact hcolumn (Keyed.mem_keys_of_mem ha)

/-- An update of an instance fails and changes nothing, or it makes the row agree with the instance
where it did not. -/
theorem updateChanged_cases (resolved : c.resolve registered m.model = .ok d)
    (names : d.NamesDistinct) (distinct : ((c.decl m.model).fields.map (·.name)).Nodup)
    (faithful : tb.Faithful d run) (kept : m.Kept tb d (c.decl m.model) start e s) {k : κ}
    (agrees : tb.Agrees d (c.decl m.model) ((c.decl m.model).Clean (m.changes e)) (m.toRow e) s k)
    {outcome : Outcome ε} (h : run.updateChanged m d e s = (outcome, s')) :
    (∃ err, outcome = .error err ∧ tb.row? s' = tb.row? s) ∨
    outcome = .ok e ∧ tb.Agrees d (c.decl m.model) (fun _ => True) (m.toRow e) s' k ∧
      tb.SameBut k s s' := by
  rw [Runner.updateChanged] at h
  cases hpush : (Update.ofModel d).push (m.toRow e) (m.changes e).dirty with
  | error err =>
    simp only [hpush] at h
    cases h
    exact Or.inl ⟨err, rfl, rfl⟩
  | ok u =>
    obtain ⟨assignments, hassigns, hu⟩ : ∃ assignments,
        Update.Assigns d (m.toRow e) (m.changes e).dirty assignments ∧
          u = ⟨d, [⟨(m.toRow e).get d.primaryKey, assignments⟩]⟩ := (Update.push_eq_ok hpush).2
    simp only [hpush] at h
    split at h
    next hnoop =>
      cases h
      have hnone : assignments = [] := by
        rw [hu] at hnoop
        exact Update.isNoop_single.mp hnoop
      obtain ⟨hident, stored, hpresent, hclean⟩ := agrees
      refine Or.inr ⟨rfl, ⟨hident, stored, hpresent, ?_⟩, fun _ _ => rfl⟩
      intro f column hstored _
      exact hclean f column hstored
        (clean_of_not_assigned resolved distinct kept hassigns (by simp [hnone]))
    next =>
      have hupdate : Table.IsUpdate d u ((m.toRow e).get d.primaryKey) assignments := by
        rw [hu]
        exact isUpdate_of_assigns resolved names hassigns
          (assigned_mem_names resolved distinct kept hassigns)
      cases hrun : run (.update u) s with
      | mk answer s₁ =>
        rw [hrun] at h
        cases answer with
        | error err =>
          cases h
          exact Or.inl ⟨err, rfl, faithful.refuses _ _ _ _ hrun⟩
        | ok answer =>
          cases h
          have hupdated := faithful.updates _ _ _ _ _ _ k hupdate hrun agrees.1
          have hagrees := agrees_of_updated resolved names distinct kept hassigns agrees hupdated
          exact Or.inr ⟨rfl, hagrees, hupdated.elsewhere⟩

/-! ## Storing -/

/-- Storing an instance fails and leaves the table as it was, or it brings the instance and its row
together and leaves no mark. -/
theorem store_cases (resolved : c.resolve registered m.model = .ok d) (names : d.NamesDistinct)
    (distinct : ((c.decl m.model).fields.map (·.name)).Nodup) (lawful : m.Lawful d)
    (faithful : tb.Faithful d run) (kept : m.Kept tb d (c.decl m.model) start e s)
    {registry : Registry} (described : registry.descriptor m.model = .ok d) {outcome : Outcome ε}
    (h : run.store registry m e s = (outcome, s')) :
    (∃ err, outcome = .error err ∧ tb.row? s' = tb.row? s) ∨
    ∃ e' k, outcome = .ok e' ∧ m.changes e' = .loaded ∧
      (c.decl m.model).Supplied (m.toRow e') ∧
      tb.Agrees d (c.decl m.model) (fun _ => True) (m.toRow e') s' k ∧
      tb.SameBut k s s' ∧ tb.SameBut k start s' := by
  have htoRow : ∀ e, m.toRow (m.persisted e) = m.toRow e := fun e => lawful.toRow_withChanges e _
  have hdone : ∀ e₁ k, (c.decl m.model).Supplied (m.toRow e₁) →
      tb.Agrees d (c.decl m.model) (fun _ => True) (m.toRow e₁) s' k → tb.SameBut k start s →
      tb.SameBut k s s' → ∃ e' k, (Except.ok (m.persisted e₁) : Outcome ε) = .ok e' ∧
        m.changes e' = .loaded ∧ (c.decl m.model).Supplied (m.toRow e') ∧
        tb.Agrees d (c.decl m.model) (fun _ => True) (m.toRow e') s' k ∧
        tb.SameBut k s s' ∧ tb.SameBut k start s' := by
    intro e₁ k hsupplied hagrees hstart hbut
    rw [← htoRow] at hsupplied hagrees
    have hchanges : m.changes (m.persisted e₁) = .loaded :=
      (lawful.changes_withChanges e₁ _).trans (ChangeSet.persisted_eq _)
    exact ⟨_, k, rfl, hchanges, hsupplied, hagrees, hbut, hstart.trans hbut⟩
  rw [Runner.store, described] at h
  cases hnew : (m.changes e).isNew with
  | true =>
    simp only [hnew, if_true] at h
    cases hinsert : run.insertNew m d e s with
    | mk answer s₁ =>
      rw [hinsert] at h
      cases h
      rcases insertNew_cases resolved names lawful faithful kept.supplied hinsert with
        ⟨err, rfl, hsame⟩ | ⟨e₁, k, rfl, hsupplied, hagrees, hbut⟩
      · exact Or.inl ⟨err, rfl, hsame⟩
      · have hstart : tb.SameBut k start s := fun _ _ => by rw [kept.untouched hnew]
        exact Or.inr (hdone e₁ k hsupplied hagrees hstart hbut)
  | false =>
    obtain ⟨k, hclean, hstart⟩ := kept.agrees hnew
    simp only [hnew, Bool.false_eq_true, if_false] at h
    cases hupdate : run.updateChanged m d e s with
    | mk answer s₁ =>
      rw [hupdate] at h
      cases h
      rcases updateChanged_cases resolved names distinct faithful kept hclean hupdate with
        ⟨err, rfl, hsame⟩ | ⟨rfl, hagrees, hbut⟩
      · exact Or.inl ⟨err, rfl, hsame⟩
      · exact Or.inr (hdone e k kept.supplied hagrees hstart hbut)

theorem agrees_mono {decl : ModelDecl} {P : String → Prop} {row : Row} {k : κ}
    (h : tb.Agrees d decl (fun _ => True) row s k) : tb.Agrees d decl P row s k := by
  obtain ⟨hident, stored, hpresent, hagrees⟩ := h
  exact ⟨hident, stored, hpresent, fun f column hstored _ => hagrees f column hstored trivial⟩

theorem kept_of_agrees {decl : ModelDecl} {k : κ} (hchanges : m.changes e = .loaded)
    (supplied : decl.Supplied (m.toRow e))
    (agrees : tb.Agrees d decl (fun _ => True) (m.toRow e) s k) (hbut : tb.SameBut k start s) :
    m.Kept tb d decl start e s where
  supplied := supplied
  dirty := by
    intro field hfield
    rw [hchanges] at hfield
    cases hfield
  untouched := by
    intro hnew
    rw [hchanges] at hnew
    cases hnew
  agrees := fun _ => ⟨k, agrees_mono agrees, hbut⟩

theorem kept_set (resolved : c.resolve registered m.model = .ok d) (names : d.NamesDistinct)
    {f : FieldDecl} {column : String} (kept : m.Kept tb d (c.decl m.model) start e s)
    (hset : m.Sets d (c.decl m.model) f column e e') :
    m.Kept tb d (c.decl m.model) start e' s := by
  have hmem : ∀ {g : FieldDecl} {other : String}, (c.decl m.model).Stored g other →
      other ∈ d.columns.map Column.name := fun hother =>
    Catalogue.mem_names_of_field resolved hother.1 hother.2
  have hrest : ∀ {other : String}, other ∈ d.columns.map Column.name → other ≠ column →
      (m.toRow e').get? other = (m.toRow e).get? other := fun hother hne =>
    hset.others _ (Descriptor.fold_ne names hother (hmem hset.stored) hne)
  refine ⟨?_, ?_, ?_, ?_⟩
  · intro g other hstored
    by_cases hne : other = column
    · rw [hne]
      exact hset.supplied
    · rw [Row.contains_congr (hrest (hmem hstored) hne)]
      exact kept.supplied g other hstored
  · intro field hfield
    rw [hset.marks, ChangeSet.isDirty_mark_iff] at hfield
    rcases hfield with hfield | rfl
    · exact kept.dirty field hfield
    · exact ⟨f, column, hset.stored, rfl, hset.notKey⟩
  · intro hnew
    rw [hset.marks, ChangeSet.isNew_mark] at hnew
    exact kept.untouched hnew
  · intro hnew
    rw [hset.marks, ChangeSet.isNew_mark] at hnew
    obtain ⟨k, ⟨hident, stored, hpresent, hagrees⟩, hbut⟩ := kept.agrees hnew
    have hkey := hrest (Catalogue.primaryKey_mem_names resolved) (Ne.symm hset.notKey)
    refine ⟨k, ⟨by rw [Row.get_congr hkey, hident], stored, hpresent, ?_⟩, hbut⟩
    intro g other hstored hclean
    -- The column that was set is no longer clean.
    have hne : other ≠ column := by
      rintro rfl
      have hmark := hclean f hset.stored
      rw [hset.marks, ChangeSet.isDirty_mark] at hmark
      cases hmark
    rw [Row.get_congr (hrest (hmem hstored) hne)]
    refine hagrees g other hstored fun g' hg' => ?_
    have hafter := hclean g' hg'
    rw [hset.marks] at hafter
    exact Bool.eq_false_iff.mpr fun hbefore =>
      Bool.eq_false_iff.mp hafter (ChangeSet.isDirty_mark_iff.mpr (Or.inl hbefore))

theorem kept_of_reached (resolved : c.resolve registered m.model = .ok d)
    (names : d.NamesDistinct) (distinct : ((c.decl m.model).fields.map (·.name)).Nodup)
    (lawful : m.Lawful d) (faithful : tb.Faithful d run)
    (h : run.Reached tb m d (c.decl m.model) start e s) :
    m.Kept tb d (c.decl m.model) start e s := by
  induction h with
  | made new supplied =>
    refine ⟨supplied, ?_, fun _ => rfl, ?_⟩
    · intro field hfield
      rw [new] at hfield
      cases hfield
    · intro hold
      rw [new] at hold
      cases hold
  | loaded old supplied agrees => exact kept_of_agrees old supplied agrees fun _ _ => rfl
  | set _ hset ih => exact kept_set resolved names ih hset
  | stored _ described hstore ih =>
    rcases store_cases resolved names distinct lawful faithful ih described hstore with
      ⟨err, herr, -⟩ | ⟨e₁, k, he, hchanges, hsupplied, hagrees, -, hbut⟩
    · cases herr
    · cases he
      exact kept_of_agrees hchanges hsupplied hagrees hbut
  | refused _ described hstore ih =>
    rcases store_cases resolved names distinct lawful faithful ih described hstore with
      ⟨err, -, hsame⟩ | ⟨e₁, k, he, -⟩
    · refine ⟨ih.supplied, ih.dirty, fun hnew => by rw [hsame, ih.untouched hnew], ?_⟩
      intro hold
      obtain ⟨k, ⟨hident, stored, hpresent, hagrees⟩, hbut⟩ := ih.agrees hold
      refine ⟨k, ⟨hident, stored, by rw [hsame, hpresent], hagrees⟩, ?_⟩
      intro other hother
      rw [hsame, hbut other hother]
    · cases he

/-- However an instance is set and stored: while it is new the table is as it was; from then on its
row agrees with it on every column without a mark; storing it makes them agree on all columns; and
no other row is ever touched. -/
theorem Runner.Reached.agrees (resolved : c.resolve registered m.model = .ok d)
    (names : d.NamesDistinct) (distinct : ((c.decl m.model).fields.map (·.name)).Nodup)
    (lawful : m.Lawful d) (faithful : tb.Faithful d run)
    (h : run.Reached tb m d (c.decl m.model) start e s) :
    ((m.changes e).isNew = true → tb.row? s = tb.row? start) ∧
    ((m.changes e).isNew = false → ∃ k, tb.SameBut k start s ∧
      tb.Agrees d (c.decl m.model) ((c.decl m.model).Clean (m.changes e)) (m.toRow e) s k) ∧
    ∀ registry e' s', registry.descriptor m.model = .ok d →
      run.store registry m e s = (.ok e', s') →
      m.changes e' = .loaded ∧ ∃ k, tb.SameBut k s s' ∧ tb.SameBut k start s' ∧
        tb.Agrees d (c.decl m.model) (fun _ => True) (m.toRow e') s' k := by
  have hkept := kept_of_reached resolved names distinct lawful faithful h
  refine ⟨hkept.untouched, ?_, ?_⟩
  · intro hold
    obtain ⟨k, hagrees, hbut⟩ := hkept.agrees hold
    exact ⟨k, hbut, hagrees⟩
  · intro registry e' s' described hstore
    rcases store_cases resolved names distinct lawful faithful hkept described hstore with
      ⟨err, herr, -⟩ | ⟨e₁, k, he, hchanges, -, hagrees, hbut, hstart⟩
    · cases herr
    · cases he
      exact ⟨hchanges, k, hbut, hstart, hagrees⟩

end Tracking

/-! ## Entities -/

theorem Entity.lawful_mapping {c : Catalogue} {registered : List String} {model : String}
    {d : Descriptor} (resolved : c.resolve registered model = .ok d) :
    (Entity.mapping c model).Lawful d where
  assigns := by
    intro e value key _ _
    obtain ⟨-, -, ⟨ty, hkey⟩, -⟩ := Catalogue.resolve_eq_ok resolved
    refine ⟨{ e with row := e.row.insert d.primaryKey key }, ?_, Row.get?_insert_self _ _ _, ?_⟩
    · show Except.ok (Entity.assignKey (c.decl model) e key) = _
      rw [Entity.assignKey, hkey]
    · intro name hname
      exact Row.get?_insert_of_ne hname key
  toRow_withChanges := fun _ _ => rfl
  changes_withChanges := fun _ _ => rfl

theorem Entity.sets_set {c : Catalogue} {model : String} {d : Descriptor} {f : FieldDecl}
    {column : String} (stored : (c.decl model).Stored f column) (notKey : column ≠ d.primaryKey)
    (e : Entity) (value : Value) :
    (Entity.mapping c model).Sets d (c.decl model) f column e (e.set f.name column value) where
  stored := stored
  notKey := notKey
  supplied := by
    show (e.row.insert column value).contains column = true
    rw [Row.contains, Row.get?_insert_self]
    rfl
  others := fun _ hname => Row.get?_insert_of_ne hname value
  marks := rfl

/-! ### An instance -/

/-- Books whose writer is both a column and a reference. -/
def press : Catalogue where
  models := [
    ⟨"Author", "Authors", "id", [⟨"id", .column .i64 (some "id") none, false⟩]⟩,
    ⟨"Book", "Books", "id", [⟨"id", .column .i64 (some "id") none, false⟩,
      ⟨"title", .column .string (some "title") none, true⟩,
      ⟨"writerKey", .column .i64 (some "writer_id") none, false⟩,
      ⟨"writer", .belongsTo "Author" (some "writer_id"), false⟩]⟩]

def pressBooks : Descriptor where
  model := "Book"
  table := "Books"
  primaryKey := "id"
  columns := [⟨"id", some "id", .i64, none, true⟩, ⟨"title", some "title", .string, none, false⟩,
    ⟨"writer_id", some "writerKey", .i64, some ⟨"Author", "Authors", "id"⟩, false⟩]
  relations := []
  references := [⟨"writer", "Author", "writer_id"⟩]

/-- A book without a key and without a writer. -/
def draft : Entity :=
  .ofRow (.ofList [("id", .null), ("title", .string "Draft"), ("writer_id", .null)]) .fresh

/-- What comes of storing a book of the press, once it is known what books are. -/
def storeBook (e : Entity) (s : Shelf) : Outcome Entity × Shelf :=
  Shelf.run.store ⟨press, ["Book"], [("Book", pressBooks)]⟩ (Entity.mapping press "Book") e s

/-- What comes of giving a stored book a title and storing it again. -/
def retitle : Outcome Entity × Shelf → Outcome Entity × Shelf
  | (.ok e, s) => storeBook (e.set "title" "title" (.string "Print")) s
  | (.error err, s) => (.error err, s)

theorem exists_of_isOk {x : Outcome Entity × Shelf} (h : x.1.isOk = true) :
    ∃ e s, x = (.ok e, s) := by
  obtain ⟨outcome, s⟩ := x
  cases outcome with
  | ok e => exact ⟨e, s, rfl⟩
  | error err => cases h

theorem supplied_draft : (press.decl "Book").Supplied draft.row := by
  intro f column hstored
  obtain ⟨hf, hcolumn⟩ := hstored
  have hfields : (press.decl "Book").fields.all (fun f => f.columnName?.all draft.row.contains) =
      true := by decide +kernel
  have hall := List.all_eq_true.mp hfields f hf
  rw [hcolumn] at hall
  exact hall

abbrev BookReached : Entity → Shelf → Prop :=
  Shelf.run.Reached Shelf.table (Entity.mapping press "Book") pressBooks (press.decl "Book") ⟨[], 1⟩

/-- A book is stored, given a title, and stored again. -/
theorem Runner.Reached.agrees_draft : ∃ e s e' s',
    BookReached e s ∧ e.changes = ⟨["title"], false⟩ ∧ storeBook e s = (.ok e', s') ∧
    (∃ k, Shelf.table.SameBut k ⟨[], 1⟩ s ∧ Shelf.table.Agrees pressBooks (press.decl "Book")
      ((press.decl "Book").Clean e.changes) e.row s k) ∧
    e'.changes = .loaded ∧ ∃ k, Shelf.table.SameBut k s s' ∧
      Shelf.table.Agrees pressBooks (press.decl "Book") (fun _ => True) e'.row s' k := by
  have hresolved : press.resolve [] "Book" = .ok pressBooks := by cbv
  have hdescribed : Registry.descriptor ⟨press, ["Book"], [("Book", pressBooks)]⟩ "Book" =
      .ok pressBooks := rfl
  have hnames : pressBooks.NamesDistinct := by decide +kernel
  have hdistinct : ((press.decl "Book").fields.map (·.name)).Nodup := by decide +kernel
  have hlawful := Entity.lawful_mapping hresolved
  have hfaithful : Shelf.table.Faithful pressBooks Shelf.run := Shelf.faithful_run rfl
  have hmade : BookReached draft ⟨[], 1⟩ := .made rfl supplied_draft
  have hdraft : (storeBook draft ⟨[], 1⟩).1.isOk = true := by decide +kernel
  obtain ⟨e₁, s₁, hfirst⟩ := exists_of_isOk hdraft
  have hchanges : e₁.changes = .loaded :=
    ((hmade.agrees hresolved hnames hdistinct hlawful hfaithful).2.2 _ _ _ hdescribed hfirst).1
  have hstored : (press.decl "Book").Stored
      ⟨"title", .column .string (some "title") none, true⟩ "title" := ⟨by decide +kernel, rfl⟩
  have hset : BookReached (e₁.set "title" "title" (.string "Print")) s₁ :=
    .set (.stored hmade hdescribed hfirst) (Entity.sets_set hstored (by decide) e₁ _)
  have hmarked : (e₁.set "title" "title" (.string "Print")).changes = ⟨["title"], false⟩ := by
    show e₁.changes.mark "title" = _
    rw [hchanges]
    rfl
  have hretitled : (retitle (storeBook draft ⟨[], 1⟩)).1.isOk = true := by decide +kernel
  rw [hfirst] at hretitled
  obtain ⟨e₂, s₂, hsecond⟩ := exists_of_isOk hretitled
  obtain ⟨-, hclean, hall⟩ := hset.agrees hresolved hnames hdistinct hlawful hfaithful
  obtain ⟨hloaded, k, hbut, -, hagrees⟩ := hall _ _ _ hdescribed hsecond
  have hold : (e₁.set "title" "title" (.string "Print")).changes.isNew = false := by rw [hmarked]
  exact ⟨_, s₁, e₂, s₂, hset, hmarked, hsecond, hclean hold, hloaded, k, hbut, hagrees⟩

end RowGraph
