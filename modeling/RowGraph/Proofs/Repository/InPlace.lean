import RowGraph.Proofs.Repository.Tracking
import RowGraph.Proofs.Statement.UpdateBatch
import RowGraph.Repository.Basic

/-!
Storing in place.

A program keeps the instance that it stores, and a repository changes the instance as it goes: first
the key is put in, last the marks are taken away.  Any step may fail, and the instance is then left
as the steps before made it.  The steps are written here one after the other, with the instance and
the repository as the state that they share.  They answer as storing does, and since the marks are
taken away by the last step alone, an instance that could not be stored is tracked as before.
-/

namespace RowGraph

/-- How a generated key is put into an instance in place.  An instance that refuses its key is
tracked as before. -/
structure Mapping.InPlace {ε : Type} (m : Mapping ε) where
  assign : ε → Value → Outcome Unit × ε
  assigned : ∀ {e e' key}, m.assignKey e key = .ok e' → assign e key = (.ok (), e')
  refused : ∀ {e key err}, m.assignKey e key = .error err →
    ∃ e', assign e key = (.error err, e') ∧ m.changes e' = m.changes e

/-- An instance that refuses its key is left alone. -/
def Mapping.inPlace {ε : Type} (m : Mapping ε) : m.InPlace where
  assign e key :=
    match m.assignKey e key with
    | .ok e' => (.ok (), e')
    | .error err => (.error err, e)
  assigned h := by rw [h]
  refused h := ⟨_, by rw [h], rfl⟩

/-- Steps that share an instance and a repository.  A failure leaves both as they are by then. -/
abbrev Storing (ε σ : Type) := ExceptT Error (StateM (ε × Repository σ))

namespace Storing

variable {ε σ : Type}

/-- The instance and the repository as they are by now. -/
def held : Storing ε σ (ε × Repository σ) :=
  ExceptT.mk fun s => (.ok s, s)

def lift {α : Type} (x : Outcome α) : Storing ε σ α :=
  ExceptT.mk fun s => (x, s)

def exec (st : Statement) : Storing ε σ (List Row) :=
  ExceptT.mk fun (e, db) => ((db.exec st).1, e, (db.exec st).2)

def assign {m : Mapping ε} (place : m.InPlace) (key : Value) : Storing ε σ Unit :=
  ExceptT.mk fun (e, db) => ((place.assign e key).1, (place.assign e key).2, db)

def markPersisted (m : Mapping ε) : Storing ε σ Unit :=
  ExceptT.mk fun (e, db) => (.ok (), m.persisted e, db)

/-- Insert a new instance.  If it has no key, it receives the one that the database generated. -/
def insertNew {m : Mapping ε} (place : m.InPlace) (d : Descriptor) (row : Row) :
    Storing ε σ Unit := do
  let insert := Insert.ofRow d row
  let rows ← exec (.insert insert)
  if insert.returningKey then
    let key ← lift (d.generatedKey rows)
    assign place key

/-- Write the changed columns of an instance, if there are any. -/
def updateChanged (d : Descriptor) (row : Row) (dirty : List String) : Storing ε σ Unit := do
  let update ← lift ((Update.ofModel d).push row dirty)
  if !update.isNoop then
    let _ ← exec (.update update)

def store (m : Mapping ε) (place : m.InPlace) : Storing ε σ Unit := do
  let (e, db) ← held
  let d ← lift (db.registry.descriptor m.model)
  if (m.changes e).isNew then insertNew place d (m.toRow e)
  else updateChanged d (m.toRow e) (m.changes e).dirty
  markPersisted m

end Storing

/-! ## What is due -/

/-- The statement that stores an instance, if there is anything to store. -/
def Mapping.statement {ε : Type} (m : Mapping ε) (registry : Registry) (e : ε) :
    Outcome (Option Statement) := do
  let d ← registry.descriptor m.model
  if (m.changes e).isNew then return some (.insert (Insert.ofRow d (m.toRow e)))
  else
    let update ← (Update.ofModel d).push (m.toRow e) (m.changes e).dirty
    return if update.isNoop then none else some (.update update)

/-- What the answer of a statement does to the instance that it stores. -/
def Mapping.InPlace.receive {ε : Type} {m : Mapping ε} (place : m.InPlace) (e : ε)
    (rows : List Row) : Statement → Outcome Unit × ε
  | .insert i =>
    if i.returningKey then
      match i.target.generatedKey rows with
      | .error err => (.error err, e)
      | .ok key => place.assign e key
    else (.ok (), e)
  | _ => (.ok (), e)

namespace Mapping.InPlace

variable {ε : Type} {m : Mapping ε} {place : m.InPlace} {e : ε}

theorem map_assign (place : m.InPlace) (e : ε) (key : Value) :
    ((place.assign e key).1.map fun _ => (place.assign e key).2) = m.assignKey e key := by
  cases hassign : m.assignKey e key with
  | error err =>
    obtain ⟨e', hrefused, -⟩ := place.refused hassign
    rw [hrefused]
    rfl
  | ok e' =>
    rw [place.assigned hassign]
    rfl

theorem changes_of_assign {e' : ε} {key : Value} {err : Error}
    (h : place.assign e key = (.error err, e')) : m.changes e' = m.changes e := by
  cases hassign : m.assignKey e key with
  | error err' =>
    obtain ⟨e'', hrefused, hchanges⟩ := place.refused hassign
    cases h.symm.trans hrefused
    exact hchanges
  | ok e'' => cases h.symm.trans (place.assigned hassign)

theorem map_receive (place : m.InPlace) (e : ε) (rows : List Row) (i : Insert) :
    ((place.receive e rows (.insert i)).1.map fun _ => (place.receive e rows (.insert i)).2) =
      if i.returningKey then (i.target.generatedKey rows).bind (m.assignKey e) else .ok e := by
  rw [receive]
  split
  next =>
    cases i.target.generatedKey rows with
    | error err => rfl
    | ok key => exact map_assign place e key
  next => rfl

/-- An instance that cannot receive its key is tracked as before. -/
theorem changes_of_receive {e' : ε} {rows : List Row} {st : Statement} {err : Error}
    (h : place.receive e rows st = (.error err, e')) : m.changes e' = m.changes e := by
  cases st with
  | insert i =>
    rw [receive] at h
    split at h
    next =>
      split at h
      next =>
        cases h
        rfl
      next => exact changes_of_assign h
    next => cases h
  | _ => cases h

end Mapping.InPlace

namespace Storing

variable {ε σ : Type} {m : Mapping ε} {place : m.InPlace} {e : ε} {db : Repository σ}

theorem run_bind {α β : Type} (x : Storing ε σ α) (f : α → Storing ε σ β)
    (s : ε × Repository σ) :
    (x >>= f) s = match x s with
      | (.ok a, s) => f a s
      | (.error err, s) => (.error err, s) := by
  show (match x s with
    | (answer, s) => ExceptT.bindCont f answer s) = _
  cases x s with
  | mk answer s =>
    cases answer with
    | ok a => rfl
    | error err => rfl

theorem run_held (s : ε × Repository σ) : (held : Storing ε σ _) s = (.ok s, s) := rfl

theorem run_lift {α : Type} (x : Outcome α) (s : ε × Repository σ) :
    (lift x : Storing ε σ α) s = (x, s) := rfl

theorem run_exec (st : Statement) : (exec st : Storing ε σ _) (e, db) =
    ((db.exec st).1, e, (db.exec st).2) := rfl

theorem insertNew_eq (d : Descriptor) (row : Row) :
    insertNew place d row (e, db) =
      match db.exec (.insert (Insert.ofRow d row)) with
      | (.error err, db) => (.error err, e, db)
      | (.ok rows, db) =>
        ((place.receive e rows (.insert (Insert.ofRow d row))).1,
          (place.receive e rows (.insert (Insert.ofRow d row))).2, db) := by
  rw [insertNew, run_bind, run_exec]
  cases db.exec (.insert (Insert.ofRow d row)) with
  | mk answer db =>
    cases answer with
    | error err => rfl
    | ok rows =>
      have htarget : (Insert.ofRow d row).target = d := rfl
      simp only [Mapping.InPlace.receive, htarget]
      cases (Insert.ofRow d row).returningKey with
      | false => rfl
      | true =>
        rw [if_pos rfl, if_pos rfl, run_bind, run_lift]
        cases d.generatedKey rows with
        | error err => rfl
        | ok key => rfl

theorem updateChanged_eq (d : Descriptor) (row : Row) (dirty : List String) :
    updateChanged d row dirty (e, db) =
      match (Update.ofModel d).push row dirty with
      | .error err => (.error err, e, db)
      | .ok update =>
        if update.isNoop then (.ok (), e, db)
        else ((db.exec (.update update)).1.map fun _ => (), e, (db.exec (.update update)).2) := by
  rw [updateChanged, run_bind, run_lift]
  cases (Update.ofModel d).push row dirty with
  | error err => rfl
  | ok update =>
    simp only
    cases update.isNoop with
    | true => rfl
    | false =>
      show (exec (.update update) >>= fun _ => pure ()) (e, db) = _
      rw [run_bind, run_exec]
      cases db.exec (.update update) with
      | mk answer db => cases answer <;> rfl

/-- Storing runs the statement that is due, if there is one, and takes the marks away last. -/
theorem store_eq : store m place (e, db) =
    match m.statement db.registry e with
    | .error err => (.error err, e, db)
    | .ok none => (.ok (), m.persisted e, db)
    | .ok (some st) =>
      match db.exec st with
      | (.error err, db) => (.error err, e, db)
      | (.ok rows, db) =>
        match place.receive e rows st with
        | (.error err, e) => (.error err, e, db)
        | (.ok (), e) => (.ok (), m.persisted e, db) := by
  rw [store, Mapping.statement, run_bind, run_held]
  simp only [run_bind, run_lift]
  cases db.registry.descriptor m.model with
  | error err => rfl
  | ok d =>
    simp only [Outcome.ok_bind]
    cases (m.changes e).isNew with
    | true =>
      rw [if_pos rfl, if_pos rfl, run_bind, insertNew_eq]
      simp only [pure, Except.pure]
      cases db.exec (.insert (Insert.ofRow d (m.toRow e))) with
      | mk answer db =>
        cases answer with
        | error err => rfl
        | ok rows =>
          simp only
          cases place.receive e rows (.insert (Insert.ofRow d (m.toRow e))) with
          | mk received e => cases received <;> rfl
    | false =>
      rw [if_neg Bool.false_ne_true, if_neg Bool.false_ne_true, run_bind, updateChanged_eq]
      cases (Update.ofModel d).push (m.toRow e) (m.changes e).dirty with
      | error err => rfl
      | ok update =>
        simp only [Outcome.ok_bind, pure, Except.pure]
        cases update.isNoop with
        | true => rfl
        | false =>
          simp only [Bool.false_eq_true, if_false]
          cases db.exec (.update update) with
          | mk answer db => cases answer <;> rfl

/-! ## The instance afterwards -/

/-- What is answered when the answer of the steps is the instance as they leave it. -/
def answer (after : Outcome Unit × ε × Repository σ) : Outcome ε × Repository σ :=
  (after.1.map fun _ => after.2.1, after.2.2)

theorem insertNew_agrees (place : m.InPlace) (d : Descriptor) (e : ε) (db : Repository σ) :
    Repository.runner.insertNew m d e db = answer (insertNew place d (m.toRow e) (e, db)) := by
  have hrun : Repository.runner (.insert (Insert.ofRow d (m.toRow e))) db =
      db.exec (.insert (Insert.ofRow d (m.toRow e))) := rfl
  simp only [insertNew_eq, Runner.insertNew, hrun]
  cases db.exec (.insert (Insert.ofRow d (m.toRow e))) with
  | mk answered db =>
    cases answered with
    | error err => rfl
    | ok rows =>
      simp only [answer, Mapping.InPlace.map_receive]
      split
      next => rfl
      next => rfl

theorem updateChanged_agrees (d : Descriptor) (e : ε) (db : Repository σ) :
    Repository.runner.updateChanged m d e db =
      answer (updateChanged d (m.toRow e) (m.changes e).dirty (e, db)) := by
  have hrun : ∀ update, Repository.runner (.update update) db = db.exec (.update update) :=
    fun _ => rfl
  simp only [updateChanged_eq, Runner.updateChanged, hrun]
  cases (Update.ofModel d).push (m.toRow e) (m.changes e).dirty with
  | error err => rfl
  | ok update =>
    simp only
    split
    next => rfl
    next =>
      cases db.exec (.update update) with
      | mk answered db => cases answered <;> rfl

/-- Storing in place answers and leaves the repository as storing does. -/
theorem store_agrees (place : m.InPlace) (e : ε) (db : Repository σ) :
    db.store m e = answer (store m place (e, db)) := by
  rw [Repository.store, Runner.store, store, run_bind, run_held]
  simp only [run_bind, run_lift]
  cases db.registry.descriptor m.model with
  | error err => rfl
  | ok d =>
    cases (m.changes e).isNew with
    | true =>
      simp only [if_true, run_bind, insertNew_agrees place]
      cases insertNew place d (m.toRow e) (e, db) with
      | mk answered s =>
        cases answered <;> rfl
    | false =>
      simp only [Bool.false_eq_true, if_false, run_bind, updateChanged_agrees]
      cases updateChanged d (m.toRow e) (m.changes e).dirty (e, db) with
      | mk answered s =>
        cases answered <;> rfl

theorem changes_of_error {e' : ε} {db' : Repository σ} {err : Error}
    (h : store m place (e, db) = (.error err, e', db')) : m.changes e' = m.changes e := by
  rw [store_eq] at h
  split at h
  next =>
    cases h
    rfl
  next => cases h
  next st _ =>
    split at h
    next =>
      cases h
      rfl
    next =>
      split at h
      next hreceive =>
        cases h
        exact Mapping.InPlace.changes_of_receive hreceive
      next => cases h

theorem persisted_of_ok {e' : ε} {db' : Repository σ}
    (h : store m place (e, db) = (.ok (), e', db')) : ∃ e'', e' = m.persisted e'' := by
  rw [store_eq] at h
  split at h
  next => cases h
  next =>
    cases h
    exact ⟨e, rfl⟩
  next st _ =>
    split at h
    next => cases h
    next =>
      split at h
      next => cases h
      next e'' _ =>
        cases h
        exact ⟨e'', rfl⟩

end Storing

/-! ## What is sent -/

/-- An executor that does as another one and keeps what it was asked beside the connection. -/
def Executor.recording {σ : Type} (x : Executor σ) : Executor (σ × List Request) where
  connect s := ((x.connect s.1).1, (x.connect s.1).2, s.2 ++ [.connect])
  execute s sql params :=
    ((x.execute s.1 sql params).1, (x.execute s.1 sql params).2,
      s.2 ++ [.statement sql params])
  disconnect s := ((x.disconnect s.1).1, (x.disconnect s.1).2, s.2 ++ [.disconnect])

namespace Repository

variable {ε σ : Type}

/-- The repository over the recording executor. -/
def recorded (db : Repository σ) (log : List Request) : Repository (σ × List Request) :=
  ⟨db.registry, db.format, db.executor.recording, (db.connection, log)⟩

/-- What is sent for a written statement: the statement, if it has a text, and once it succeeded the
statement that reads a key back. -/
def sent (db : Repository σ) (f : Sql.Formatted) : List Request :=
  if f.sql.isEmpty then []
  else .statement f.sql f.params ::
    if (db.executor.execute db.connection f.sql f.params).1.isOk then
      f.followUp.toList.map fun sql => .statement sql []
    else []

theorem ask_recorded (db : Repository σ) (log : List Request) (sql : String)
    (params : List Scalar) :
    (db.recorded log).ask sql params = ((db.ask sql params).1,
      (db.ask sql params).2.recorded (log ++ [.statement sql params])) := rfl

theorem run_recorded (db : Repository σ) (log : List Request) (f : Sql.Formatted) :
    (db.recorded log).run f = ((db.run f).1, (db.run f).2.recorded (log ++ db.sent f)) := by
  rw [run, run, sent]
  split
  next => rw [List.append_nil]
  next =>
    have hask : (db.ask f.sql f.params).1 =
      (db.executor.execute db.connection f.sql f.params).1 := rfl
    rw [ask_recorded, ← hask]
    cases db.ask f.sql f.params with
    | mk answer after =>
      cases answer with
      | error err => rfl
      | ok rows =>
        cases f.followUp with
        | none => rfl
        | some sql =>
          simp only [ask_recorded, List.append_assoc]
          rfl

/-- What is sent for a statement: nothing, if it cannot be written. -/
def sentFor (db : Repository σ) (st : Statement) : List Request :=
  match db.format.serialize st .empty with
  | .error _ => []
  | .ok f => db.sent f

theorem exec_recorded (db : Repository σ) (log : List Request) (st : Statement) :
    (db.recorded log).exec st =
      ((db.exec st).1, (db.exec st).2.recorded (log ++ db.sentFor st)) := by
  have hformat : (db.recorded log).format = db.format := rfl
  rw [exec, exec, sentFor, hformat]
  cases db.format.serialize st .empty with
  | error err =>
    simp only [List.append_nil]
  | ok f => exact run_recorded db log f

/-- What is sent to store an instance. -/
def sentToStore (db : Repository σ) (m : Mapping ε) (e : ε) : List Request :=
  match m.statement db.registry e with
  | .ok (some st) => db.sentFor st
  | _ => []

/-- Recording changes nothing but the record. -/
theorem store_recorded {m : Mapping ε} (place : m.InPlace) (db : Repository σ) (log : List Request)
    (e : ε) {out : Outcome Unit} {e' : ε} {db' : Repository σ}
    (h : Storing.store m place (e, db) = (out, e', db')) :
    Storing.store m place (e, db.recorded log) =
      (out, e', db'.recorded (log ++ db.sentToStore m e)) := by
  have hregistry : (db.recorded log).registry = db.registry := rfl
  rw [Storing.store_eq] at h ⊢
  rw [sentToStore, hregistry]
  cases hst : m.statement db.registry e with
  | error err =>
    rw [hst] at h
    cases h
    simp only [List.append_nil]
  | ok o =>
    rw [hst] at h
    cases o with
    | none =>
      cases h
      simp only [List.append_nil]
    | some st =>
      simp only [exec_recorded] at h ⊢
      cases hexec : db.exec st with
      | mk answer after =>
        rw [hexec] at h
        cases answer with
        | error err =>
          cases h
          rfl
        | ok rows =>
          simp only at h ⊢
          cases hreceive : place.receive e rows st with
          | mk received e'' =>
            rw [hreceive] at h
            cases received with
            | error err =>
              cases h
              rfl
            | ok =>
              cases h
              rfl

end Repository

/-! ## Statements that are due -/

theorem Mapping.statement_cases {ε : Type} {m : Mapping ε} {registry : Registry} {e : ε}
    {st : Statement} (h : m.statement registry e = .ok (some st)) :
    ∃ d, registry.descriptor m.model = .ok d ∧
      ((m.changes e).isNew = true ∧ st = .insert (Insert.ofRow d (m.toRow e)) ∨
        (m.changes e).isNew = false ∧ ∃ u, st = .update u ∧ u.isNoop = false) := by
  rw [statement, Outcome.bind_eq_ok] at h
  obtain ⟨d, hd, h⟩ := h
  refine ⟨d, hd, ?_⟩
  cases hnew : (m.changes e).isNew with
  | true =>
    rw [hnew, if_pos rfl] at h
    cases h
    exact Or.inl ⟨rfl, rfl⟩
  | false =>
    rw [hnew, if_neg Bool.false_ne_true, Outcome.bind_eq_ok] at h
    obtain ⟨u, -, h⟩ := h
    cases hnoop : u.isNoop with
    | true =>
      rw [hnoop] at h
      cases h
    | false =>
      rw [hnoop] at h
      cases h
      exact Or.inr ⟨rfl, u, rfl, hnoop⟩

namespace Sql

theorem isEmpty_layout_text (format : Format) {s : String} (hs : s ≠ "") (rest : List Fragment) :
    (layout format (.text s :: rest)).isEmpty = false := by
  rw [layout, textFrom, Bool.eq_false_iff]
  intro h
  exact hs (String.append_eq_empty_iff.mp (String.isEmpty_iff.mp h)).1

theorem followUp_insert {flavor : Flavor} {i : Insert} {next : Option String}
    (h : followUp flavor (.insert i) = .ok next) (sql : String) :
    next = some sql ↔ i.returningKey = true ∧ flavor.keyHook? = some (.followUp sql) := by
  rw [followUp] at h
  split at h
  next hkey =>
    rw [and_iff_right hkey]
    split at h
    next sql' hhook =>
      cases h
      rw [hhook]
      simp
    next hook hne hhook =>
      cases h
      rw [hhook]
      constructor
      · intro h
        cases h
      · intro h
        exact absurd (Option.some.inj h) (hne sql)
    next => cases h
  next hkey =>
    cases h
    simp [hkey]

end Sql

namespace Repository

variable {ε σ : Type} {m : Mapping ε} {db : Repository σ} {e : ε}

/-- What is written to store an instance, if there is anything to store. -/
def due (db : Repository σ) (m : Mapping ε) (e : ε) : Outcome (Option Sql.Formatted) :=
  match m.statement db.registry e with
  | .error err => .error err
  | .ok none => .ok none
  | .ok (some st) => (db.format.serialize st .empty).map some

/-- The instance is new and has no key, the dialect reads generated keys back with a statement of
its own, and the insertion succeeded. -/
structure FollowsUp (db : Repository σ) (m : Mapping ε) (e : ε) (f : Sql.Formatted)
    (sql : String) : Prop where
  isNew : (m.changes e).isNew = true
  keyless : ∃ d, db.registry.descriptor m.model = .ok d ∧
    ((m.toRow e).get d.primaryKey).isNull = true
  hook : db.format.flavor.keyHook? = some (.followUp sql)
  inserted : ∃ rows, (db.executor.execute db.connection f.sql f.params).1 = .ok rows

theorem due_eq_some {f : Sql.Formatted} (h : db.due m e = .ok (some f)) :
    ∃ st, m.statement db.registry e = .ok (some st) ∧
      db.format.serialize st .empty = .ok f := by
  rw [due] at h
  split at h
  next => cases h
  next => cases h
  next st hst =>
    refine ⟨st, hst, ?_⟩
    cases hf : db.format.serialize st .empty with
    | error err =>
      rw [hf] at h
      cases h
    | ok f' =>
      rw [hf] at h
      cases h
      rfl

/-- A statement that is due has a text. -/
theorem isEmpty_sql_of_due {f : Sql.Formatted} (h : db.due m e = .ok (some f)) :
    f.sql.isEmpty = false := by
  obtain ⟨st, hst, hf⟩ := due_eq_some h
  rw [(Sql.serialize_eq_ok hf).2]
  obtain ⟨d, -, ⟨-, rfl⟩ | ⟨-, u, rfl, hassigns⟩⟩ := Mapping.statement_cases hst
  · exact Sql.isEmpty_layout_text db.format (by decide) _
  · rw [Bool.eq_false_iff, ne_eq, String.isEmpty_iff]
    exact mt (Sql.layout_ofUpdate_eq_empty_iff u).mp (by rw [hassigns]; exact Bool.false_ne_true)

/-- The statement that reads a key back is sent exactly when it is called for. -/
theorem followsUp_iff {f : Sql.Formatted} (h : db.due m e = .ok (some f)) (sql : String) :
    db.FollowsUp m e f sql ↔ f.followUp = some sql ∧
      (db.executor.execute db.connection f.sql f.params).1.isOk = true := by
  obtain ⟨st, hst, hf⟩ := due_eq_some h
  have hfollow := (Sql.serialize_eq_ok hf).1
  have hanswer : (db.executor.execute db.connection f.sql f.params).1.isOk = true ↔
      ∃ rows, (db.executor.execute db.connection f.sql f.params).1 = .ok rows := by
    cases (db.executor.execute db.connection f.sql f.params).1 with
    | error err => exact ⟨nofun, fun h => by obtain ⟨rows, h⟩ := h; cases h⟩
    | ok rows => exact ⟨fun _ => ⟨rows, rfl⟩, fun _ => rfl⟩
  rw [hanswer]
  obtain ⟨d, hd, ⟨hnew, rfl⟩ | ⟨hold, u, rfl, -⟩⟩ := Mapping.statement_cases hst
  · rw [Sql.followUp_insert hfollow]
    constructor
    · rintro ⟨-, ⟨d', hd', hkeyless⟩, hhook, hinserted⟩
      cases hd.symm.trans hd'
      exact ⟨⟨hkeyless, hhook⟩, hinserted⟩
    · rintro ⟨⟨hkeyless, hhook⟩, hinserted⟩
      exact ⟨hnew, ⟨d, hd, hkeyless⟩, hhook, hinserted⟩
  · have hnone : f.followUp = none := (Except.ok.inj hfollow).symm
    rw [hnone]
    constructor
    · rintro ⟨hnew, -, -, -⟩
      rw [hold] at hnew
      cases hnew
    · rintro ⟨hsome, -⟩
      cases hsome

/-- Of a statement that is due, it alone is sent, or it and the statement that reads a key back. -/
theorem sentToStore_cases {f : Sql.Formatted} (h : db.due m e = .ok (some f)) :
    (∃ sql, db.FollowsUp m e f sql ∧
      db.sentToStore m e = [.statement f.sql f.params, .statement sql []]) ∨
    ((∀ sql, ¬db.FollowsUp m e f sql) ∧ db.sentToStore m e = [.statement f.sql f.params]) := by
  obtain ⟨st, hst, hf⟩ := due_eq_some h
  rw [sentToStore, hst]
  simp only [followsUp_iff h, sentFor, hf, sent, isEmpty_sql_of_due h, Bool.false_eq_true, if_false]
  cases (db.executor.execute db.connection f.sql f.params).1.isOk with
  | false => exact Or.inr ⟨by simp, rfl⟩
  | true =>
    cases f.followUp with
    | none => exact Or.inr ⟨by simp, rfl⟩
    | some sql => exact Or.inl ⟨sql, ⟨rfl, rfl⟩, rfl⟩

end Repository

namespace Storing

variable {ε σ : Type}

variable {m : Mapping ε} {e : ε} {db : Repository σ}

/-- Nothing is sent for a statement that cannot be made or written. -/
theorem store_of_due_error (place : m.InPlace) {err : Error} (h : db.due m e = .error err) :
    store m place (e, db) = (.error err, e, db) ∧ db.sentToStore m e = [] := by
  rw [Repository.due] at h
  rw [store_eq, Repository.sentToStore]
  cases hst : m.statement db.registry e with
  | error err' =>
    rw [hst] at h
    cases h
    exact ⟨rfl, rfl⟩
  | ok o =>
    rw [hst] at h
    cases o with
    | none => cases h
    | some st =>
      simp only [Repository.exec, Repository.sentFor] at h ⊢
      cases hf : db.format.serialize st .empty with
      | error err' =>
        rw [hf] at h
        cases h
        exact ⟨rfl, rfl⟩
      | ok f =>
        rw [hf] at h
        cases h

theorem store_of_due_none (place : m.InPlace) (h : db.due m e = .ok none) :
    store m place (e, db) = (.ok (), m.persisted e, db) ∧ db.sentToStore m e = [] := by
  rw [Repository.due] at h
  rw [store_eq, Repository.sentToStore]
  split at h
  next => cases h
  next hst =>
    rw [hst]
    exact ⟨rfl, rfl⟩
  next st hst =>
    cases hf : db.format.serialize st .empty with
    | error err =>
      rw [hf] at h
      cases h
    | ok f =>
      rw [hf] at h
      cases h

/-- An error of the executor is that of storing, and the instance is left alone. -/
theorem store_of_run_error (place : m.InPlace) {f : Sql.Formatted}
    (h : db.due m e = .ok (some f)) {err : Error} {db' : Repository σ}
    (hrun : db.run f = (.error err, db')) : store m place (e, db) = (.error err, e, db') := by
  obtain ⟨st, hst, hf⟩ := Repository.due_eq_some h
  have hexec : db.exec st = (.error err, db') := by
    rw [Repository.exec, hf]
    exact hrun
  rw [store_eq, hst]
  simp only [hexec]

/-- What comes of storing an instance in place, over any executor, which is asked for nothing but
what is recorded.  If it fails, the instance is tracked as before; if it succeeds, the instance is
neither new nor changed.  If the statement cannot be made or written, or if nothing is to be
assigned, nothing is sent; otherwise the one statement is sent, and after it the statement that
reads a key back, exactly when that is called for. -/
theorem store_sends {m : Mapping ε} (place : m.InPlace)
    (tracks : ∀ e changes, m.changes (m.withChanges e changes) = changes) (e : ε)
    (db : Repository σ) :
    ∃ out e' db' log, store m place (e, db) = (out, e', db') ∧
      store m place (e, db.recorded []) = (out, e', db'.recorded log) ∧
      db.store m e = (out.map fun _ => e', db') ∧
      (∀ err, out = .error err → (m.changes e').isNew = (m.changes e).isNew ∧
        (m.changes e').dirty = (m.changes e).dirty) ∧
      (out = .ok () → (m.changes e').isNew = false ∧ (m.changes e').dirty = []) ∧
      (∀ err, db.due m e = .error err → out = .error err ∧ log = []) ∧
      (db.due m e = .ok none → out = .ok () ∧ log = []) ∧
      ∀ f, db.due m e = .ok (some f) →
        (∃ sql, db.FollowsUp m e f sql ∧
          log = [.statement f.sql f.params, .statement sql []]) ∨
        ((∀ sql, ¬db.FollowsUp m e f sql) ∧ log = [.statement f.sql f.params]) := by
  cases hstore : store m place (e, db) with
  | mk out after =>
    obtain ⟨e', db'⟩ := after
    have hrecorded := Repository.store_recorded place db [] e hstore
    rw [List.nil_append] at hrecorded
    refine ⟨out, e', db', db.sentToStore m e, rfl, hrecorded, ?_, ?_, ?_, ?_, ?_, ?_⟩
    · rw [store_agrees place, hstore]
      rfl
    · rintro err rfl
      rw [changes_of_error hstore]
      exact ⟨rfl, rfl⟩
    · rintro rfl
      obtain ⟨e'', rfl⟩ := persisted_of_ok hstore
      rw [Mapping.persisted, tracks, ChangeSet.persisted_eq]
      exact ⟨rfl, rfl⟩
    · intro err hdue
      obtain ⟨hrefused, hsent⟩ := store_of_due_error place hdue
      cases hstore.symm.trans hrefused
      exact ⟨rfl, hsent⟩
    · intro hdue
      obtain ⟨hdone, hsent⟩ := store_of_due_none place hdue
      cases hstore.symm.trans hdone
      exact ⟨rfl, hsent⟩
    · exact fun f hdue => Repository.sentToStore_cases hdue

/-! ### A key that cannot be read back -/

/-- A repository whose connection breaks after the first statement. -/
def breakingPress : Repository Script where
  registry := ⟨press, ["Book"], [("Book", pressBooks)]⟩
  format := ⟨.sqlite, .inline, ""⟩
  executor := .bare
  connection := .ofResponses [.ok [], .error (.ofText "connection reset")]

def draftInsertion : Sql.Formatted where
  sql := "INSERT INTO Books (title, writer_id) VALUES ('Draft', NULL);"
  params := []
  aliases := .empty
  followUp := some "SELECT last_insert_rowid();"

/-- The book was inserted, but its key did not arrive, and the book is still a new one. -/
theorem store_sends_draft :
    ∃ e', ∃ db' : Repository Script,
      store (Entity.mapping press "Book") (Entity.mapping press "Book").inPlace
        (draft, breakingPress.recorded []) = (.error (.ofText "connection reset"), e',
          db'.recorded
            [.statement "INSERT INTO Books (title, writer_id) VALUES ('Draft', NULL);" [],
              .statement "SELECT last_insert_rowid();" []]) ∧
      e'.changes.isNew = true ∧ e'.changes.dirty = [] := by
  have hdue : breakingPress.due (Entity.mapping press "Book") draft =
      .ok (some draftInsertion) := by cbv
  have hrun : breakingPress.run draftInsertion = (.error (.ofText "connection reset"),
      { breakingPress with connection := ⟨[], [.statement draftInsertion.sql [],
        .statement "SELECT last_insert_rowid();" []]⟩ }) := by
    rw [Repository.run, if_neg (by decide)]
    rfl
  have hfollows : breakingPress.FollowsUp (Entity.mapping press "Book") draft draftInsertion
      "SELECT last_insert_rowid();" :=
    ⟨rfl, ⟨pressBooks, rfl, by decide +kernel⟩, rfl, [], rfl⟩
  obtain ⟨out, e', db', log, hstore, hrecorded, -, hfailed, -, -, -, hsent⟩ :=
    store_sends (Entity.mapping press "Book").inPlace (fun _ _ => rfl) draft breakingPress
  cases hstore.symm.trans (store_of_run_error _ hdue hrun)
  obtain ⟨hnew, hdirty⟩ := hfailed _ rfl
  rcases hsent _ hdue with ⟨sql, hsql, rfl⟩ | ⟨hnone, -⟩
  · cases Option.some.inj (hfollows.hook.symm.trans hsql.hook)
    exact ⟨_, _, hrecorded, hnew, hdirty⟩
  · exact absurd hfollows (hnone _)

end Storing
end RowGraph
