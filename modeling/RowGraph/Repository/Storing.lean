import RowGraph.Repository.Entity
import RowGraph.Statement.Basic

/-!
Storing and deleting instances.

Which statement an instance needs follows from the instance and its descriptor alone.  It is made
here and handed to a runner, which may be a database behind the text of statements or a table in
memory.  Nothing is handed over when a statement cannot be made or has nothing to do.
-/

namespace RowGraph

/-- What runs statements: a statement answers in rows and leaves a state, also when it fails. -/
abbrev Runner (σ : Type) := Statement → σ → Outcome (List Row) × σ

def Mapping.persisted {ε : Type} (m : Mapping ε) (e : ε) : ε :=
  m.withChanges e (m.changes e).persisted

/-- The key that an insertion generated: the first column of the first row of its answer. -/
def Descriptor.generatedKey (d : Descriptor) (rows : List Row) : Outcome Value :=
  match rows.head?.bind (·.entries.head?) with
  | some (_, v) =>
    if v.isNull then .error (.invalidResult (.noGeneratedKey d.model)) else v.convert d.keyColumn.ty
  | none => .error (.invalidResult (.noGeneratedKey d.model))

namespace Runner

variable {σ ε : Type}

/-! ## Storing -/

/-- Insert a new instance.  If it has no key, it receives the one that the database generated. -/
def insertNew (run : Runner σ) (m : Mapping ε) (d : Descriptor) (e : ε) (s : σ) :
    Outcome ε × σ :=
  let insert := Insert.ofRow d (m.toRow e)
  match run (.insert insert) s with
  | (.error err, s) => (.error err, s)
  | (.ok rows, s) =>
    if insert.returningKey then ((d.generatedKey rows).bind (m.assignKey e), s) else (.ok e, s)

/-- Write the changed columns of an instance that was stored before.  If there are none, nothing is
run. -/
def updateChanged (run : Runner σ) (m : Mapping ε) (d : Descriptor) (e : ε) (s : σ) :
    Outcome ε × σ :=
  match (Update.ofModel d).push (m.toRow e) (m.changes e).dirty with
  | .error err => (.error err, s)
  | .ok update =>
    if update.isNoop then (.ok e, s)
    else
      let (answer, s) := run (.update update) s
      (answer.map fun _ => e, s)

/-- Write an instance.  The answer is the instance as it is afterwards; when writing fails the
instance stays as it was. -/
def store (run : Runner σ) (registry : Registry) (m : Mapping ε) (e : ε) (s : σ) :
    Outcome ε × σ :=
  match registry.descriptor m.model with
  | .error err => (.error err, s)
  | .ok d =>
    let (answer, s) :=
      if (m.changes e).isNew then run.insertNew m d e s else run.updateChanged m d e s
    (answer.map m.persisted, s)

/-! ## Deleting -/

def deletion (registry : Registry) (m : Mapping ε) (e : ε) : Outcome Delete := do
  let d ← registry.descriptor m.model
  let key := (m.toRow e).get d.primaryKey
  if key.isNull then .error (.adhoc (.deleteWithoutKey d.model))
  else Delete.byKey registry d.model key

def delete (run : Runner σ) (registry : Registry) (m : Mapping ε) (e : ε) (s : σ) :
    Outcome Unit × σ :=
  match deletion registry m e with
  | .error err => (.error err, s)
  | .ok d =>
    let (answer, s) := run (.delete d) s
    (answer.map fun _ => (), s)

end Runner
end RowGraph
