import Mathlib
import RowGraph.Proofs.Lists
import RowGraph.Proofs.Repository.Written
import RowGraph.Proofs.Sql.Placeholders

/-!
What a batch of updates writes.

Rows are pushed one after another.  A row without a key is refused, and so is one with a changed field
that its model does not have; the batch then stays as it is.  Of the others each adds the columns
that its changed fields are stored in, in the order in which the fields name them first.

The text is one statement for each row that assigns something, so it is empty exactly where the batch
has nothing to do.  Values are counted through the whole text.
-/

namespace RowGraph
namespace Update

variable {d : Descriptor} {u after : Update} {row : Row} {dirty done : List String} {field : String}

/-! ## One row -/

/-- The columns that the changed fields are stored in, each once and without the key. -/
def written (d : Descriptor) (dirty : List String) : List String :=
  ((dirty.filterMap d.storage?).filter (· ≠ d.primaryKey)).eraseDups

/-- The columns that change, each with the value of the row. -/
def changes (d : Descriptor) (row : Row) (dirty : List String) : Keyed String Value :=
  (written d dirty).map fun column => (column, row.get column)

/-- The model has a field of that name: one that is stored in a column, or a collection. -/
def hasField (d : Descriptor) (field : String) : Bool :=
  (d.storage? field).isSome || (d.relation? field).isSome

/-- The row has a key, and its changed fields are fields of the model. -/
def accepts (d : Descriptor) (push : Row × List String) : Bool :=
  !(push.1.get d.primaryKey).isNull && push.2.all (hasField d)

def rowOf (d : Descriptor) (push : Row × List String) : UpdateRow :=
  ⟨push.1.get d.primaryKey, changes d push.1 push.2⟩

theorem keys_changes (d : Descriptor) (row : Row) (dirty : List String) :
    (changes d row dirty).keys = written d dirty := by
  rw [changes, Keyed.keys, List.map_map]
  exact List.map_id _

/-- A further field adds the column that it is stored in, if this is a new one. -/
theorem written_concat (d : Descriptor) (done : List String) (field : String) :
    written d (done ++ [field]) =
      match d.storage? field with
      | none => written d done
      | some column =>
        if column = d.primaryKey ∨ column ∈ written d done then written d done
        else written d done ++ [column] := by
  rw [written, List.filterMap_append, List.filterMap_cons, List.filterMap_nil]
  cases d.storage? field with
  | none =>
    rw [List.append_nil]
    rfl
  | some column =>
    simp only [written, List.mem_eraseDups]
    rw [List.filter_append, List.filter_singleton]
    by_cases hkey : column = d.primaryKey
    · simp [hkey]
    · simp only [hkey, ne_eq, not_false_eq_true, decide_true, false_or]
      exact eraseDups_concat _ column

theorem assign_changes {later : Keyed String Value}
    (h : assign d row (changes d row done) field = .ok later) :
    later = changes d row (done ++ [field]) := by
  have hkeys := keys_changes d row done
  rcases assign_eq_ok h with ⟨rfl, hskip⟩ | ⟨column, hstorage, hkey, hnew, rfl⟩
  · rw [changes, changes, written_concat]
    cases hstorage : d.storage? field with
    | none => rfl
    | some column => simp only [if_pos (hkeys ▸ hskip column hstorage)]
  · have hfresh : ¬(column = d.primaryKey ∨ column ∈ written d done) := by
      rw [← hkeys]
      exact not_or.mpr ⟨hkey, hnew⟩
    rw [changes, changes, written_concat, hstorage]
    simp only [if_neg hfresh, List.map_append, List.map_cons, List.map_nil]

theorem fails_assign_iff (d : Descriptor) (row : Row) (assignments : Keyed String Value)
    (field : String) : (assign d row assignments field).Fails ↔
      hasField d field = false := by
  rw [assign, Outcome.fails_bind_iff_left]
  · rw [columnOf, hasField]
    cases d.storage? field with
    | some column => simpa using Outcome.not_fails_ok (some column)
    | none =>
      cases d.relation? field with
      | some r => simpa using Outcome.not_fails_ok (none : Option String)
      | none => simpa using Outcome.fails_error _
  · intro found
    cases found with
    | none => exact Outcome.not_fails_ok _
    | some column =>
      dsimp only
      split
      next => exact Outcome.not_fails_ok _
      next => exact Outcome.not_fails_ok _

theorem fails_push_iff : (u.push row dirty).Fails ↔ accepts u.target (row, dirty) = false := by
  rw [push, accepts]
  cases (row.get u.target.primaryKey).isNull with
  | true => exact iff_of_true (Outcome.fails_error _) rfl
  | false =>
    rw [if_neg Bool.false_ne_true]
    refine (Outcome.fails_bind_iff_left fun _ => Outcome.not_fails_ok _).trans ?_
    rw [Outcome.fails_foldlM_iff_exists (fails_assign_iff u.target row)]
    simp

theorem eq_of_push (h : u.push row dirty = .ok after) :
    after = { u with rows := u.rows ++ [rowOf u.target (row, dirty)] } := by
  rw [push] at h
  split at h
  next => cases h
  next =>
    rw [Outcome.bind_eq_ok] at h
    obtain ⟨assignments, hfold, h⟩ := h
    cases h
    have hchanges : assignments = changes u.target row dirty :=
      Outcome.foldlM_prefix_induction
        (P := fun done assignments => assignments = changes u.target row done) rfl
        (fun done field before later hbefore hstep => assign_changes (hbefore ▸ hstep)) hfold
    rw [hchanges]
    rfl

/-! ## A batch -/

/-- The batch after a push.  A push that fails leaves it as it was. -/
def attempt (u : Update) (push : Row × List String) : Update :=
  match u.push push.1 push.2 with
  | .ok after => after
  | .error _ => u

def pushAll (d : Descriptor) (pushes : List (Row × List String)) : Update :=
  pushes.foldl attempt (ofModel d)

theorem attempt_cases (u : Update) (push : Row × List String) :
    (accepts u.target push = false ∧ (u.push push.1 push.2).Fails ∧ u.attempt push = u) ∨
    (accepts u.target push = true ∧ u.push push.1 push.2 = .ok (u.attempt push) ∧
      u.attempt push = { u with rows := u.rows ++ [rowOf u.target push] }) := by
  rw [attempt]
  cases h : u.push push.1 push.2 with
  | error e =>
    have hfails : Outcome.Fails (.error e : Outcome Update) := Outcome.fails_error e
    exact Or.inl ⟨fails_push_iff.mp (h ▸ hfails), hfails, rfl⟩
  | ok after =>
    refine Or.inr ⟨Bool.of_not_eq_false fun hrefused => ?_, rfl, eq_of_push h⟩
    exact Outcome.not_fails_ok after (h ▸ fails_push_iff.mpr hrefused)

theorem pushAll_concat (d : Descriptor) (pushes : List (Row × List String))
    (push : Row × List String) :
    pushAll d (pushes ++ [push]) = (pushAll d pushes).attempt push :=
  List.foldl_concat attempt (ofModel d) push pushes

/-- A batch has a row for each push that was accepted, in their order. -/
theorem pushAll_eq (d : Descriptor) (pushes : List (Row × List String)) :
    pushAll d pushes = ⟨d, (pushes.filter (accepts d)).map (rowOf d)⟩ := by
  -- From the end: a push meets the batch that the pushes before it made.
  induction pushes using List.reverseRecOn with
  | nil => rfl
  | append_singleton pushes push ih =>
    rw [pushAll_concat, ih, List.filter_append, List.map_append]
    rcases attempt_cases ⟨d, (pushes.filter (accepts d)).map (rowOf d)⟩ push with
      ⟨hrefused, -, hsame⟩ | ⟨haccepted, -, hadded⟩
    · rw [hsame, List.filter_cons_of_neg (by simpa using hrefused)]
      simp
    · rw [hadded, List.filter_cons_of_pos haccepted]
      rfl

/-- What a further push does to a batch. -/
theorem push_pushAll_cases (d : Descriptor) (pushes : List (Row × List String)) (row : Row)
    (dirty : List String) :
    (accepts d (row, dirty) = false ∧
      (∃ e, (pushAll d pushes).push row dirty = .error e) ∧
      pushAll d (pushes ++ [(row, dirty)]) = pushAll d pushes) ∨
    (accepts d (row, dirty) = true ∧ row.get d.primaryKey ≠ .null ∧
      (pushAll d pushes).push row dirty = .ok (pushAll d (pushes ++ [(row, dirty)])) ∧
      (pushAll d (pushes ++ [(row, dirty)])).rows =
        (pushAll d pushes).rows ++ [⟨row.get d.primaryKey, changes d row dirty⟩]) := by
  have htarget : (pushAll d pushes).target = d := by rw [pushAll_eq]
  have hcases := attempt_cases (pushAll d pushes) (row, dirty)
  rw [htarget, ← pushAll_concat] at hcases
  rcases hcases with ⟨hrefused, hfails, hsame⟩ | ⟨haccepted, hpush, hadded⟩
  · exact Or.inl ⟨hrefused, hfails, hsame⟩
  · have hkey : (row.get d.primaryKey).isNull = false := by
      rw [accepts, Bool.and_eq_true, Bool.not_eq_true'] at haccepted
      exact haccepted.1
    refine Or.inr ⟨haccepted, ?_, hpush, by rw [hadded]; rfl⟩
    intro hnull
    rw [hnull] at hkey
    cases hkey

/-- An update has nothing to do exactly if no row of it assigns something. -/
theorem isNoop_iff : u.isNoop = true ↔ u.rows.filter (!·.assignments.isEmpty) = [] := by
  simp [isNoop, List.filter_eq_nil_iff]

end Update

namespace Sql

variable {format : Format}

/-! ## The text -/

/-- A value as a layout writes it, `n` being the number of the first single value in it. -/
def Format.valueText (format : Format) (n : Nat) (v : Value) : String :=
  textFrom format n (ofValue v)

def Format.assignmentText (format : Format) (n : Nat) (assignment : String × Value) : String :=
  assignment.1 ++ " = " ++ format.valueText n assignment.2

def assignmentsCount (row : UpdateRow) : Nat :=
  (row.assignments.flatMap fun assignment => assignment.2.scalars).length

/-- The statement for one row: its assignments, and the key that it is found by. -/
def Format.updateText (format : Format) (d : Descriptor) (n : Nat) (row : UpdateRow) : String :=
  "UPDATE " ++ format.tablePrefix ++ d.table ++ " SET " ++
    ", ".intercalate
      (numbered (fun assignment => assignment.2.scalars.length) format.assignmentText n
        row.assignments) ++
    " WHERE " ++ d.primaryKey ++ " = " ++ format.valueText (n + assignmentsCount row) row.key ++ ";"

theorem textFrom_ofAssignment (n : Nat) (assignment : String × Value) :
    textFrom format n (ofAssignment assignment) = format.assignmentText n assignment := by
  rw [ofAssignment, textFrom]
  rfl

theorem textFrom_ofUpdateRow (d : Descriptor) (n : Nat) (row : UpdateRow) :
    textFrom format n (ofUpdateRow d row) = format.updateText d n row := by
  have hcount : ∀ assignment, (values (ofAssignment assignment)).length =
      assignment.2.scalars.length :=
    fun assignment => congrArg List.length (values_ofAssignment assignment)
  have hassigned : values (commas (row.assignments.map ofAssignment)) =
      row.assignments.flatMap fun assignment => assignment.2.scalars := by
    rw [values_commas, List.flatMap_map]
    simp only [values_ofAssignment]
  have htexts : textFrom format n (commas (row.assignments.map ofAssignment)) =
      ", ".intercalate (numbered (fun assignment => assignment.2.scalars.length)
        format.assignmentText n row.assignments) :=
    textFrom_separated_map hcount textFrom_ofAssignment n ", " row.assignments
  simp only [ofUpdateRow, textFrom_append, textFrom, values_append, values_text, values_table,
    values_nil, List.nil_append, hassigned, htexts, List.length_nil, Nat.add_zero,
    Format.updateText, Format.valueText, assignmentsCount, String.append_assoc,
    String.append_empty]

/-- The texts of the rows that assign something, on lines of their own. -/
theorem layout_ofUpdate (format : Format) (u : Update) :
    layout format (ofUpdate u) =
      "\n".intercalate (numbered (fun row => row.scalars.length) (format.updateText u.target) 1
        (u.rows.filter (!·.assignments.isEmpty))) :=
  textFrom_separated_map
    (fun row => congrArg List.length (values_ofUpdateRow u.target row))
    (textFrom_ofUpdateRow u.target) 1 "\n" _

theorem bound_ofUpdate (format : Format) (u : Update) :
    bound format (ofUpdate u) =
      if format.style = .inline then []
      else (u.rows.filter (!·.assignments.isEmpty)).flatMap UpdateRow.scalars := by
  rw [bound, values_ofUpdate]
  cases format.style <;> rfl

theorem updateText_ne_empty (d : Descriptor) (n : Nat) (row : UpdateRow) :
    format.updateText d n row ≠ "" := by
  intro h
  simp only [Format.updateText, String.append_eq_empty_iff] at h
  exact absurd h.2 (by decide)

theorem layout_ofUpdate_eq_empty_iff (u : Update) :
    layout format (ofUpdate u) = "" ↔ u.isNoop = true := by
  rw [layout_ofUpdate, Update.isNoop_iff]
  cases u.rows.filter (!·.assignments.isEmpty) with
  | nil => exact iff_of_true String.intercalate_nil rfl
  | cons row rest =>
    rw [numbered]
    exact iff_of_false (intercalate_cons_ne_empty (updateText_ne_empty _ _ _) _)
      (List.cons_ne_nil row rest)

end Sql

namespace Update

open Sql

/-- However many rows were pushed, a further push either fails and leaves the batch as it was, or
adds one row: the key of the row, which is not null, and the columns that its changed fields are
stored in, without the key and each once, with the values of the row.  The text of a batch consists of
one statement for each row that assigns something, in the order of the pushes and on lines of their
own, and it is empty exactly if the batch has nothing to do. -/
theorem serialize_pushAll (d : Descriptor) (pushes : List (Row × List String)) :
    (∀ row dirty,
      (accepts d (row, dirty) = false ∧
        (∃ e, (pushAll d pushes).push row dirty = .error e) ∧
        pushAll d (pushes ++ [(row, dirty)]) = pushAll d pushes) ∨
      (accepts d (row, dirty) = true ∧ row.get d.primaryKey ≠ .null ∧
        (pushAll d pushes).push row dirty = .ok (pushAll d (pushes ++ [(row, dirty)])) ∧
        (pushAll d (pushes ++ [(row, dirty)])).rows = (pushAll d pushes).rows ++
          [⟨row.get d.primaryKey, (written d dirty).map fun column => (column, row.get column)⟩])) ∧
    pushAll d pushes = ⟨d, (pushes.filter (accepts d)).map (rowOf d)⟩ ∧
    ∀ (format : Format) (aliases : AliasTable),
      let changed := (pushAll d pushes).rows.filter (!·.assignments.isEmpty)
      ∃ f, format.serialize (.update (pushAll d pushes)) aliases = .ok f ∧
        f.sql = "\n".intercalate
          (numbered (fun row => row.scalars.length) (format.updateText d) 1 changed) ∧
        f.params = (if format.style = .inline then [] else changed.flatMap UpdateRow.scalars) ∧
        (f.sql = "" ↔ (pushAll d pushes).isNoop = true) := by
  have htarget : (pushAll d pushes).target = d := by rw [pushAll_eq]
  refine ⟨push_pushAll_cases d pushes, pushAll_eq d pushes, fun format aliases => ?_⟩
  have htext := layout_ofUpdate format (pushAll d pushes)
  rw [htarget] at htext
  exact ⟨⟨layout format (ofUpdate (pushAll d pushes)), bound format (ofUpdate (pushAll d pushes)),
    aliases, none⟩, rfl, htext, bound_ofUpdate format _, layout_ofUpdate_eq_empty_iff _⟩

/-- Of three rows one changes nothing but its key. -/
example :
    let players : Descriptor := ⟨"Player", "Players", "id", [⟨"id", some "id", .i64, none, true⟩,
      ⟨"name", some "name", .string, none, false⟩, ⟨"age", some "age", .i32, none, false⟩], [], []⟩
    let row (id : Int64) (name : String) : Row := .ofList [("id", .i64 id), ("name", .string name)]
    layout ⟨.postgresql, .placeholders, ""⟩ (ofUpdate (pushAll players
        [(row 1 "a", ["age", "name", "age"]), (row 2 "b", ["id"]), (row 3 "c", ["name"])])) =
      "UPDATE Players SET age = $1, name = $2 WHERE id = $3;\n" ++
        "UPDATE Players SET name = $4 WHERE id = $5;" := by
  cbv

end Update
end RowGraph
