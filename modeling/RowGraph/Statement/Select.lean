import RowGraph.Statement.Link

/-!
Selections: a root model, the collections joined to it, a filter and a projection.

Every step takes a selection and gives a new one; the old one can be used further.  Parameters are
only ever added, and a link goes from a parameter that is there to one that is added with it.
-/

namespace RowGraph

structure Join where
  member : String
  /-- The owning parameter; the root if none is named. -/
  left : Option String
  /-- A name for the related parameter. -/
  right : Option String
  /-- A condition to join on instead of the keys. -/
  on : Option Expr

structure Select where
  params : Parameters
  filter : Option Condition
  /-- The joins, in the order in which they were added. -/
  links : List Link
  /-- The parameters and columns to read; every column if there is none. -/
  projection : Option (List (String × String))

namespace Select

def ofModel (registry : Registry) (model : String) (name : Option String) : Outcome Select := do
  let d ← registry.descriptor model
  let (_, params) ← Parameters.empty.register name d true
  return ⟨params, none, [], none⟩

def rootName (s : Select) : String :=
  s.params.default.getD Parameters.defaultName

def restrict (s : Select) (registry : Registry) (e : Expr) : Outcome Select := do
  let scope ← Scope.filter registry s.params
  let condition ← scope.compile e
  return { s with filter := some (Condition.conjoin s.filter condition) }

def join (s : Select) (registry : Registry) (j : Join) : Outcome Select := do
  let left := j.left.getD s.rootName
  let leftType ← Link.paramType s.params left
  let relation ← Link.relationOf leftType j.member
  let target ← registry.descriptor relation.target
  let (right, params) ← s.params.register j.right target false
  let link ← Link.build registry params left j.member right j.on
  return { s with params := params, links := s.links ++ [link] }

def columnOf (s : Select) (param column : String) : Outcome (String × String) := do
  let d ← Link.paramType s.params param
  match d.column? column with
  | some found => return (param, found.name)
  | none => .error (.invalidSchema (.noSuchColumn d.model column))

/-- The selection restricted to the given columns.  Keys are read in any case. -/
def columns (s : Select) (wanted : List (String × String)) : Outcome Select := do
  let found ← wanted.mapM fun (param, column) => s.columnOf param column
  return { s with projection := some found.eraseDups }

def linksFrom (s : Select) (param : String) : List Link :=
  s.links.filter (·.left == param)

def isKey (s : Select) (param column : String) : Bool :=
  (s.params.find? param).any (·.primaryKey == column)

/-- Whether a column is one by which joined rows are paired. -/
def isLinkKey (s : Select) (param column : String) : Bool :=
  s.links.any fun l =>
    (l.left == param && l.primaryKey == column) || (l.right == param && l.foreignKey == column)

/-- Whether the selection reads a column.  A projection leaves out neither keys nor the columns by
which joined rows are paired. -/
def reads (s : Select) (param column : String) : Bool :=
  match s.projection with
  | none => true
  | some wanted => s.isKey param column || s.isLinkKey param column || wanted.contains (param, column)

def readColumns (s : Select) : List (String × String) :=
  s.params.entries.flatMap fun (param, d) =>
    (d.columns.filter fun c => s.reads param c.name).map fun c => (param, c.name)

/-- Whether a selection still has the parameters of one that it was made of.  What selections share
is one set of parameters, which a join replaces by a set with a further name and which the other
steps hand on.  Here the names are compared: between a selection and one that steps made of it they
decide.  Selections that come from different joins or were begun apart share no set even where their
names are equal, and this does not tell them apart. -/
def sharesParams (a b : Select) : Bool :=
  a.params.names == b.params.names

/-! ## Steps -/

inductive Step where
  | restrict (e : Expr)
  | join (j : Join)
  | columns (wanted : List (String × String))

def step (s : Select) (registry : Registry) : Step → Outcome Select
  | .restrict e => s.restrict registry e
  | .join j => s.join registry j
  | .columns wanted => s.columns wanted

def build (registry : Registry) (model : String) (name : Option String) (steps : List Step) :
    Outcome Select := do
  steps.foldlM (fun s st => s.step registry st) (← ofModel registry model name)

end Select
end RowGraph
