import RowGraph.Value.Scalar

/-!
Values: single ones, and lists of values for set membership.
-/

namespace RowGraph

inductive Value where
  | scalar (v : Scalar)
  | list (items : List Value)

instance : Coe Scalar Value := ⟨Value.scalar⟩

namespace Value

@[match_pattern] abbrev null : Value := .scalar .null
@[match_pattern] abbrev bool (b : Bool) : Value := .scalar (.bool b)
@[match_pattern] abbrev f64 (x : Binary64) : Value := .scalar (.f64 x)
@[match_pattern] abbrev i16 (n : Int16) : Value := .scalar (.i16 n)
@[match_pattern] abbrev i32 (n : Int32) : Value := .scalar (.i32 n)
@[match_pattern] abbrev i64 (n : Int64) : Value := .scalar (.i64 n)
@[match_pattern] abbrev string (s : String) : Value := .scalar (.string s)

instance : Inhabited Value := ⟨null⟩

/-! ## Equality -/

mutual
def decEq : (a b : Value) → Decidable (a = b)
  | scalar a, scalar b => decidable_of_iff (a = b) (by simp)
  | list as, list bs =>
    match decEqList as bs with
    | isTrue h => isTrue (by rw [h])
    | isFalse h => isFalse fun e => h (by injection e)
  | scalar _, list _ => isFalse nofun
  | list _, scalar _ => isFalse nofun

def decEqList : (as bs : List Value) → Decidable (as = bs)
  | [], [] => isTrue rfl
  | a :: as, b :: bs =>
    match decEq a b, decEqList as bs with
    | isTrue h, isTrue hs => isTrue (by rw [h, hs])
    | isFalse h, _ => isFalse fun e => h (by injection e)
    | _, isFalse hs => isFalse fun e => hs (by injection e)
  | [], _ :: _ => isFalse nofun
  | _ :: _, [] => isFalse nofun
end

instance : DecidableEq Value := decEq

mutual
/-- Sameness of data, item by item in lists: floating-point numbers are compared as numbers. -/
def same : Value → Value → Bool
  | scalar a, scalar b => a.same b
  | list as, list bs => sameList as bs
  | _, _ => false

def sameList : List Value → List Value → Bool
  | [], [] => true
  | a :: as, b :: bs => same a b && sameList as bs
  | _, _ => false
end

/-! ## Parts and kinds -/

def kindName : Value → String
  | scalar v => v.kindName
  | list _ => "List"

def isNull : Value → Bool
  | scalar v => v.isNull
  | list _ => false

def isList : Value → Bool
  | scalar _ => false
  | list _ => true

def text? : Value → Option String
  | string s => some s
  | _ => none

def items? : Value → Option (List Value)
  | scalar _ => none
  | list items => some items

/-- The number held by an integer of any width. -/
def toInt? : Value → Option Int
  | scalar v => v.toInt?
  | list _ => none

@[simp] theorem isNull_iff {v : Value} : v.isNull = true ↔ v = null := by
  cases v <;> simp [isNull]

/-! ## Comparison -/

/-- The order of a database on values.  A list compares with nothing, itself included. -/
def compare? : Value → Value → Option Ordering
  | scalar a, scalar b => a.compare? b
  | _, _ => none

/-- Equality in the sense of a database. -/
def equals (a b : Value) : Bool :=
  a.compare? b == some .eq

def isText (v : Value) (s : String) : Bool :=
  v.text? == some s

/-- The value is the given integer, in whatever width. -/
def isInt (v : Value) (n : Int) : Bool :=
  v.toInt? == some n

/-! ## Conversion -/

def read? (ty : ColumnType) : Value → Option Value
  | scalar v => (v.read? ty).map scalar
  | list _ => none

/-- The value converted to the given type; null belongs to every type. -/
def convert? (ty : ColumnType) (v : Value) : Option Value :=
  if v.isNull then some v else v.read? ty

/-! ## Text -/

mutual
def inspect : Value → String
  | scalar v => v.inspect
  | list items => "List([" ++ inspectItems items ++ "])"

def inspectItems : List Value → String
  | [] => ""
  | [v] => inspect v
  | v :: w :: rest => inspect v ++ ", " ++ inspectItems (w :: rest)
end

end Value
end RowGraph
