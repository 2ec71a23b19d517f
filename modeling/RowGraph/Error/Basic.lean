import RowGraph.Error.Fault

/-!
Errors: a fault, and the faults that say in which context it arose.

Adding context never loses what went wrong: the message of the result ends with the message of the
error it wraps, and every kind that could be told before can still be told.
-/

namespace RowGraph

/-- A fault together with the faults it wraps, outermost first. -/
structure Error where
  outermost : Fault
  causes : List Fault

namespace Error

def ofFault (fault : Fault) : Error := ⟨fault, []⟩

instance : Coe Fault Error := ⟨ofFault⟩

def faults (e : Error) : List Fault :=
  e.outermost :: e.causes

def message (e : Error) : String :=
  Fault.chainText (e.faults.map Fault.message)

def sources (e : Error) : List String :=
  e.outermost.sources

/-- Whether an error is of a kind.  An ad-hoc error is one whose outermost fault is; of the other
kinds is every error that has such a fault in its chain. -/
def is (e : Error) : FaultKind → Bool
  | .adhoc => e.outermost.kind == .adhoc
  | kind => e.faults.any (·.kind == kind)

/-! ## Shorthands -/

def adhoc (why : Misuse) : Error := ofFault (.adhoc why)
def ambiguousCondition (why : Ambiguity) : Error := ofFault (.ambiguousCondition why)
def invalidResult (why : ResultMismatch) : Error := ofFault (.invalidResult why)
def invalidSchema (why : SchemaMistake) : Error := ofFault (.invalidSchema why)
def missingDialectHook (why : MissingHook) : Error := ofFault (.missingDialectHook why)
def typeConversion (value : Value) (target : String) : Error :=
  ofFault (.typeConversion value target)
def unsupportedExpression (why : Unsupported) : Error := ofFault (.unsupportedExpression why)
def ofText (s : String) : Error := adhoc (.other s)

/-! ## Context -/

inductive Context where
  /-- An error given away for this purpose.  Its outermost fault becomes the context. -/
  | given (e : Error)
  /-- An error that someone else still holds.  It lends the text of its outermost fault. -/
  | lent (e : Error)

/-- The fault that a context puts in front of an error. -/
def Context.fault : Context → Fault
  | given e => e.outermost
  | lent e => .adhoc (.other e.outermost.message)

def within (e : Error) (context : Context) : Error :=
  ⟨context.fault, e.faults⟩

def because (e : Error) (fault : Fault) : Error :=
  e.within (.given fault)

theorem faults_within (e : Error) (context : Context) :
    (e.within context).faults = context.fault :: e.faults := rfl

end Error

abbrev Outcome (α : Type) := Except Error α

end RowGraph
