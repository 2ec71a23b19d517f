import RowGraph.Repository.Executor
import RowGraph.Repository.Query
import RowGraph.Repository.Storing
import RowGraph.Sql.Formatted

/-!
The repository: instances loaded and stored through one executor.

Statements are compiled against the repository's registry, written in its format and run one at a
time.  An operation answers and leaves a repository, whose connection is the only thing that changes.
Nothing is run for a statement that cannot be made or written, or that has nothing to do.
-/

namespace RowGraph

structure Repository (σ : Type) where
  registry : Registry
  format : Sql.Format
  executor : Executor σ
  connection : σ

namespace Repository

variable {σ ε : Type}

/-! ## Opening and closing -/

/-- The registry with every model registered, then every model described, as far as this goes. -/
def prepare (registry : Registry) (models : List String) : Outcome Registry :=
  models.foldlM
    (fun registry model => match registry.describe model with
      | (.ok _, registry) => .ok registry
      | (.error e, _) => .error e)
    (models.foldl Registry.register registry)

/-- A repository over an executor.  The models are described before the connection is opened, so a
mistake in their declarations opens nothing. -/
def connect (registry : Registry) (models : List String) (format : Sql.Format)
    (executor : Executor σ) (connection : σ) : Outcome (Repository σ) × σ :=
  match prepare registry models with
  | .error e => (.error e, connection)
  | .ok registry =>
    let (opened, connection) := executor.connect connection
    (opened.map fun _ => ⟨registry, format, executor, connection⟩, connection)

def disconnect (db : Repository σ) : Outcome Unit × σ :=
  db.executor.disconnect db.connection

/-! ## Running statements -/

def ask (db : Repository σ) (sql : String) (params : List Scalar) :
    Outcome (List Row) × Repository σ :=
  let (answer, connection) := db.executor.execute db.connection sql params
  (answer, { db with connection := connection })

/-- Run a written statement.  When a generated key is read back by a statement of its own, its rows
are the answer. -/
def run (db : Repository σ) (formatted : Sql.Formatted) : Outcome (List Row) × Repository σ :=
  if formatted.sql.isEmpty then (.ok [], db)
  else
    match db.ask formatted.sql formatted.params with
    | (.error e, db) => (.error e, db)
    | (.ok rows, db) =>
      match formatted.followUp with
      | some sql => db.ask sql []
      | none => (.ok rows, db)

def exec (db : Repository σ) (st : Statement) : Outcome (List Row) × Repository σ :=
  match db.format.serialize st .empty with
  | .error e => (.error e, db)
  | .ok formatted => db.run formatted

/-! ## Loading -/

def load (db : Repository σ) (m : Mapping ε) (s : Select) : Outcome (List ε) × Repository σ :=
  match db.format.serialize (.select s) .empty with
  | .error e => (.error e, db)
  | .ok formatted =>
    match db.run formatted with
    | (.error e, db) => (.error e, db)
    | (.ok rows, db) =>
      ((Graph.hydrate s formatted.aliases rows).bind fun records => records.mapM m.load, db)

def all (db : Repository σ) (m : Mapping ε) (q : Query) : Outcome (List ε) × Repository σ :=
  match q.build db.registry with
  | .error e => (.error e, db)
  | .ok s => db.load m s

def first (db : Repository σ) (m : Mapping ε) (q : Query) : Outcome (Option ε) × Repository σ :=
  let (answer, db) := db.all m q
  (answer.map List.head?, db)

/-- The selection of the instance with a key. -/
def findSelect (registry : Registry) (model : String) (key : Value) : Outcome Select := do
  (← Select.ofModel registry model none).restrict registry
    (.eq (.member (.ofModel model [])) (.value key))

def find (db : Repository σ) (m : Mapping ε) (key : Value) : Outcome (Option ε) × Repository σ :=
  match findSelect db.registry m.model key with
  | .error e => (.error e, db)
  | .ok s =>
    let (answer, db) := db.load m s
    (answer.map List.head?, db)

/-! ## Storing -/

/-- The repository as what runs the statements of an instance. -/
def runner : Runner (Repository σ) := fun st db => db.exec st

/-- Write an instance.  The answer is the instance as it is afterwards; when writing fails the
instance stays as it was. -/
def store (db : Repository σ) (m : Mapping ε) (e : ε) : Outcome ε × Repository σ :=
  runner.store db.registry m e db

def delete (db : Repository σ) (m : Mapping ε) (e : ε) : Outcome Unit × Repository σ :=
  runner.delete db.registry m e db

end Repository
end RowGraph
