import RowGraph.Condition.Basic
import RowGraph.Expr
import RowGraph.Sql.Flavor

/-!
What can go wrong, and how it is said.

A fault records its cause as data and belongs to one kind.  The wording is in one function per kind;
nothing else in the library spells a message.  Each kind also has a free form, for callers and
executors that raise faults of their own.
-/

namespace RowGraph

def backquoted (s : String) : String := "\x60" ++ s ++ "\x60"

/-! ## Misuse of a builder -/

/-- A request that a builder or the repository refuses on the spot. -/
inductive Misuse where
  | defaultTaken (existing refused : String)
  | filterWithoutDefault
  | mixedBatch (model : String)
  | updateWithoutKey (model : String)
  | deleteWithoutKey (model : String)
  | other (text : String)
  deriving DecidableEq

def Misuse.message : Misuse → String
  | defaultTaken existing refused =>
    "parameter " ++ backquoted existing ++ " is already the default; cannot register "
      ++ backquoted refused ++ " as default"
  | filterWithoutDefault => "cannot compile a filter without a default parameter"
  | mixedBatch model =>
    "cannot batch " ++ backquoted model ++ " rows with and without primary key values"
  | updateWithoutKey model => "cannot update " ++ backquoted model ++ " without a primary key value"
  | deleteWithoutKey model => "cannot delete " ++ backquoted model ++ " without a primary key value"
  | other text => text

/-! ## Conditions whose meaning is not clear -/

/-- A predicate that does not say which parameters it is about. -/
inductive Ambiguity where
  | unknownParameter (name : String)
  | noParameterOf (model : String)
  | severalParametersOf (model : String) (names : List String)
  /-- Not exactly one side of a comparison is rooted at the parameter that should come first. -/
  | unoriented (lhs : Condition) (op : Operator) (rhs : Condition) (left : String)
  /-- A join condition that pairs no column of one side with a column of the other. -/
  | noKeyPair (condition : Condition) (left right : String)
  | other (text : String)

def Ambiguity.message : Ambiguity → String
  | unknownParameter name => "unknown parameter " ++ backquoted name
  | noParameterOf model => "no parameter of type " ++ backquoted model ++ " is in scope"
  | severalParametersOf model names =>
    "more than one parameter of type " ++ backquoted model ++ " is in scope ("
      ++ String.intercalate ", " names ++ "); name one explicitly"
  | unoriented lhs op rhs left =>
    "cannot tell which side of " ++ backquoted (lhs.inspect ++ " " ++ op.symbol ++ " " ++ rhs.inspect)
      ++ " is rooted at " ++ backquoted left
  | noKeyPair condition left right =>
    "join condition " ++ backquoted condition.inspect ++ " has no equality between "
      ++ backquoted left ++ " and " ++ backquoted right
  | other text => text

/-! ## Expressions outside the language of conditions -/

/-- An expression that no condition expresses. -/
inductive Unsupported where
  | negation
  | nullTest
  | notPredicate (e : Expr)
  | notOperand (e : Expr)
  | membershipOfNonMember
  | membershipInNonConstant
  | nestedList
  | listOperand
  | foreignMember (model param paramModel : String)
  | hasManyOperand (model member : String)
  | noSuchMember (model member : String)
  | navigation (m : Member)
  /-- A call that was evaluated with the wrong number of arguments. -/
  | evaluatedCall (f : Builtin) (given : Nat)
  /-- A call that was to be written with the wrong number of arguments. -/
  | writtenCall (f : Builtin) (given : Nat)
  | other (text : String)

def Unsupported.message : Unsupported → String
  | negation => "negation is not supported"
  | nullTest => "null tests are not supported"
  | notPredicate e => backquoted e.inspect ++ " is not a predicate"
  | notOperand e => backquoted e.inspect ++ " cannot be used as a comparison operand"
  | membershipOfNonMember => "set membership requires a member on the left"
  | membershipInNonConstant => "set membership requires a constant list"
  | nestedList => "nested lists are not supported"
  | listOperand => "a list can only be used for set membership"
  | foreignMember model param paramModel =>
    "member of " ++ backquoted model ++ " bound to parameter " ++ backquoted param ++ " of type "
      ++ backquoted paramModel
  | hasManyOperand model member =>
    "has-many member " ++ backquoted (model ++ "::" ++ member) ++ " cannot be compared"
  | noSuchMember model member => backquoted model ++ " has no member " ++ backquoted member
  | navigation m =>
    "navigation beyond a key is not supported: "
      ++ backquoted (m.model ++ "." ++ String.intercalate "." m.path)
  | evaluatedCall f given =>
    backquoted f.inspect ++ " called with " ++ toString given ++ " arguments"
  | writtenCall f given =>
    f.inspect ++ " takes " ++ toString f.arity ++ " arguments; " ++ toString given ++ " were given"
  | other text => text

/-! ## Declarations that do not fit together -/

/-- A mistake in the declared models, or a name that they do not declare. -/
inductive SchemaMistake where
  | missingPrimaryKey (model : String)
  | missingForeignKey (model member : String)
  | ambiguousForeignKey (model member : String) (candidates : List String)
  | unresolvableRelation (model member : String)
  | sharedColumn (model column : String)
  /-- A relation joined to a parameter of another model than it leads to. -/
  | wrongTarget (model member target param paramModel : String)
  | noSuchColumn (model column : String)
  | noSuchMember (model member : String)
  | other (text : String)
  deriving DecidableEq

def SchemaMistake.message : SchemaMistake → String
  | missingPrimaryKey model =>
    "model " ++ backquoted model ++ " does not declare a primary key"
  | missingForeignKey model member =>
    "relation " ++ backquoted (model ++ "::" ++ member)
      ++ " has no foreign key; declare one explicitly"
  | ambiguousForeignKey model member candidates =>
    "relation " ++ backquoted (model ++ "::" ++ member)
      ++ " has more than one foreign key candidate (" ++ String.intercalate ", " candidates
      ++ "); declare one explicitly"
  | unresolvableRelation model member =>
    "model " ++ backquoted model ++ " has no relation named " ++ backquoted member
  | sharedColumn model column =>
    "model " ++ backquoted model ++ " maps more than one field to column " ++ backquoted column
  | wrongTarget model member target param paramModel =>
    "relation " ++ backquoted (model ++ "::" ++ member) ++ " targets " ++ backquoted target
      ++ " but parameter " ++ backquoted param ++ " is a " ++ backquoted paramModel
  | noSuchColumn model column => backquoted model ++ " has no column " ++ backquoted column
  | noSuchMember model member => backquoted model ++ " has no member " ++ backquoted member
  | other text => text

/-! ## Results that do not fit their statement -/

/-- A result that the statement it answers cannot have produced. -/
inductive ResultMismatch where
  | noValue (param column : String)
  | unknownAlias (name : String)
  | unknownParameter (name : String)
  | noGeneratedKey (model : String)
  /-- A column whose value is not of the type it is loaded into. -/
  | unloadable (table column : String)
  | other (text : String)
  deriving DecidableEq

def ResultMismatch.message : ResultMismatch → String
  | noValue param column => "no value for " ++ backquoted (param ++ "." ++ column) ++ " in row"
  | unknownAlias name => "unknown column alias " ++ backquoted name
  | unknownParameter name => "unknown parameter " ++ backquoted name ++ " in result"
  | noGeneratedKey model => "no generated key returned for " ++ backquoted model
  | unloadable table column => "cannot load " ++ backquoted (table ++ "." ++ column)
  | other text => text

/-! ## Dialects that lack a clause -/

inductive MissingHook where
  | generatedKey (flavor : Sql.Flavor) (table : String)
  | other (text : String)
  deriving DecidableEq

def MissingHook.message : MissingHook → String
  | generatedKey flavor table =>
    flavor.name ++ " cannot read back the generated key of " ++ backquoted table
  | other text => text

/-! ## Faults -/

inductive FaultKind where
  | adhoc
  | ambiguousCondition
  | driver
  | invalidResult
  | invalidSchema
  | missingDialectHook
  | typeConversion
  | unsupportedExpression
  | foreign
  /-- A has-many member read although it was not loaded. -/
  | unloaded
  deriving DecidableEq

inductive Fault where
  | adhoc (why : Misuse)
  | ambiguousCondition (why : Ambiguity)
  /-- An error of the executor, with the errors it came from, nearest first. -/
  | driver (text : String) (sources : List String)
  | invalidResult (why : ResultMismatch)
  | invalidSchema (why : SchemaMistake)
  | missingDialectHook (why : MissingHook)
  /-- A value that cannot be read as the named type. -/
  | typeConversion (value : Value) (target : String)
  | unsupportedExpression (why : Unsupported)
  /-- An error of another library, with the errors it came from, nearest first. -/
  | foreign (text : String) (sources : List String)
  | unloaded

namespace Fault

def kind : Fault → FaultKind
  | adhoc _ => .adhoc
  | ambiguousCondition _ => .ambiguousCondition
  | driver _ _ => .driver
  | invalidResult _ => .invalidResult
  | invalidSchema _ => .invalidSchema
  | missingDialectHook _ => .missingDialectHook
  | typeConversion _ _ => .typeConversion
  | unsupportedExpression _ => .unsupportedExpression
  | foreign _ _ => .foreign
  | unloaded => .unloaded

def chainText (texts : List String) : String :=
  String.intercalate ": " texts

/-- The text of a fault.  An executor's error carries its sources in its text; an error of another
library does not. -/
def message : Fault → String
  | adhoc why => why.message
  | ambiguousCondition why => "ambiguous condition: " ++ why.message
  | driver text sources => chainText (text :: sources)
  | invalidResult why => "invalid result: " ++ why.message
  | invalidSchema why => "invalid schema: " ++ why.message
  | missingDialectHook why => "missing dialect hook: " ++ why.message
  | typeConversion value target => "cannot convert " ++ value.kindName ++ " to " ++ target
  | unsupportedExpression why => "unsupported expression: " ++ why.message
  | foreign text _ => text
  | unloaded => "association not loaded"

def sources : Fault → List String
  | driver text sources => chainText (text :: sources) :: text :: sources
  | foreign text sources => text :: sources
  | _ => []

end Fault
end RowGraph
