import RowGraph.Binary64.Decimal
import RowGraph.Text.Quoted

/-!
Column types and single values.

A value remembers the width it was written with, but width never decides a comparison: integers of
every width are compared as integers, and an integer meets a floating-point number as the double
nearest to it.
-/

namespace RowGraph

/-! ## Column types -/

inductive ColumnType where
  | bool
  | f64
  | i16
  | i32
  | i64
  | string
  deriving DecidableEq

namespace ColumnType

/-- The name of the type in declarations and messages. -/
def name : ColumnType → String
  | bool => "bool"
  | f64 => "f64"
  | i16 => "i16"
  | i32 => "i32"
  | i64 => "i64"
  | string => "string"

/-- The name of the type as the aim of a conversion. -/
def targetName : ColumnType → String
  | string => "String"
  | ty => ty.name

def kindName : ColumnType → String
  | bool => "Bool"
  | f64 => "F64"
  | i16 => "I16"
  | i32 => "I32"
  | i64 => "I64"
  | string => "String"

def isInteger : ColumnType → Bool
  | i16 | i32 | i64 => true
  | _ => false

/-- Integer types narrower than the integers that databases hand back. -/
def isNarrow : ColumnType → Bool
  | i16 | i32 => true
  | _ => false

theorem isInteger_of_isNarrow {ty : ColumnType} (h : ty.isNarrow = true) :
    ty.isInteger = true := by
  cases ty <;> simp_all [isNarrow, isInteger]

end ColumnType

/-! ## Single values -/

inductive Scalar where
  | null
  | bool (b : Bool)
  | f64 (x : Binary64)
  | i16 (n : Int16)
  | i32 (n : Int32)
  | i64 (n : Int64)
  | string (s : String)
  deriving DecidableEq

namespace Scalar

def kindName : Scalar → String
  | null => "Null"
  | bool _ => "Bool"
  | f64 _ => "F64"
  | i16 _ => "I16"
  | i32 _ => "I32"
  | i64 _ => "I64"
  | string _ => "String"

def isNull : Scalar → Bool
  | null => true
  | _ => false

/-- The number held by an integer of any width. -/
def toInt? : Scalar → Option Int
  | i16 n => some n.toInt
  | i32 n => some n.toInt
  | i64 n => some n.toInt
  | _ => none

def isInteger (v : Scalar) : Bool :=
  v.toInt?.isSome

@[simp] theorem isNull_iff {v : Scalar} : v.isNull = true ↔ v = null := by
  cases v <;> simp [isNull]

theorem not_isNull_of_toInt? {v : Scalar} {n : Int} (h : v.toInt? = some n) :
    v.isNull = false := by
  cases v <;> simp_all [toInt?, isNull]

/-! ## Comparison -/

/-- The order of a database: null equals null and is otherwise incomparable, numbers are compared by
number, and values of different kinds do not compare. -/
def compare? : Scalar → Scalar → Option Ordering
  | null, null => some .eq
  | bool a, bool b => some (compare a b)
  | string a, string b => some (compare a b)
  | f64 a, f64 b => a.compare? b
  | f64 a, b => b.toInt?.bind fun n => a.compare? (Binary64.ofInt n)
  | a, f64 b => a.toInt?.bind fun n => (Binary64.ofInt n).compare? b
  | a, b => a.toInt?.bind fun m => b.toInt?.map fun n => compare m n

/-- Two integers compare as integers, whatever their widths. -/
theorem compare?_of_toInt? {a b : Scalar} {m n : Int} (ha : a.toInt? = some m)
    (hb : b.toInt? = some n) : a.compare? b = some (compare m n) := by
  cases a <;> cases b <;> simp_all [toInt?, compare?]

/-- Sameness of data: the same kind with the same content, floating-point numbers compared as
numbers. -/
def same : Scalar → Scalar → Bool
  | f64 a, f64 b => a.equals b
  | a, b => a == b

/-! ## Conversion -/

/-- The integer `n` as a value of an integer type, when it fits. -/
def ofInt? (ty : ColumnType) (n : Int) : Option Scalar :=
  match ty with
  | .i16 => if -0x8000 ≤ n ∧ n < 0x8000 then some (i16 (Int16.ofInt n)) else none
  | .i32 => if -0x80000000 ≤ n ∧ n < 0x80000000 then some (i32 (Int32.ofInt n)) else none
  | .i64 =>
    if -0x8000000000000000 ≤ n ∧ n < 0x8000000000000000 then some (i64 (Int64.ofInt n)) else none
  | _ => none

/-- The value read as one of the given type.  A truth value may come back from a database as a
64-bit integer, and a floating-point column accepts every integer; nothing else changes kind. -/
def read? (ty : ColumnType) (v : Scalar) : Option Scalar :=
  match ty, v with
  | .bool, bool b => some (bool b)
  | .bool, i64 n => some (bool (n != 0))
  | .bool, _ => none
  | .f64, f64 x => some (f64 x)
  | .f64, v => v.toInt?.map fun n => f64 (Binary64.ofInt n)
  | .string, string s => some (string s)
  | .string, _ => none
  | ty, v => v.toInt?.bind (ofInt? ty)

/-- A conversion between integer types that succeeds keeps the number. -/
theorem toInt?_of_ofInt? {ty : ColumnType} {n : Int} {v : Scalar} (h : ofInt? ty n = some v) :
    v.toInt? = some n := by
  unfold ofInt? at h
  split at h
  · split at h
    next hr =>
      cases h
      rw [toInt?, Int16.toInt_ofInt_of_le (by omega) (by omega)]
    next => cases h
  · split at h
    next hr =>
      cases h
      rw [toInt?, Int32.toInt_ofInt_of_le (by omega) (by omega)]
    next => cases h
  · split at h
    next hr =>
      cases h
      rw [toInt?, Int64.toInt_ofInt_of_le (by omega) (by omega)]
    next => cases h
  · cases h

/-! ## Text -/

def inspect : Scalar → String
  | null => "Null"
  | bool b => "Bool(" ++ (if b then "true" else "false") ++ ")"
  | f64 x => "F64(" ++ x.text .message ++ ")"
  | i16 n => "I16(" ++ toString n.toInt ++ ")"
  | i32 n => "I32(" ++ toString n.toInt ++ ")"
  | i64 n => "I64(" ++ toString n.toInt ++ ")"
  | string s => "String(" ++ Text.quoted s ++ ")"

end Scalar
end RowGraph
