import RowGraph.Sql.Flavor
import RowGraph.Value.Basic

/-!
Statement text in pieces, and the two ways to lay it out.

A statement is written once, as a list of fragments: text that is the same everywhere, names of
tables, and single values.  Only the layout decides what becomes of a value: its literal, or a
placeholder with the value set aside.  The two layouts of a statement thus differ in nothing else,
and placeholders are numbered in the order in which the values stand in the text.
-/

namespace RowGraph
namespace Sql

inductive Fragment where
  | text (s : String)
  | table (name : String)
  | value (v : Scalar)
  deriving DecidableEq

inductive Style where
  | inline
  | placeholders
  deriving DecidableEq

def Style.name : Style → String
  | inline => "Inline"
  | placeholders => "Placeholders"

structure Format where
  flavor : Flavor
  style : Style
  tablePrefix : String
  deriving DecidableEq

/-! ## Literals -/

/-- A text between single quotes, a quote inside being written twice. -/
def stringLiteral (s : String) : String :=
  "\x27" ++ String.ofList (s.toList.flatMap fun c => if c = '\x27' then [c, c] else [c]) ++ "\x27"

def literal (flavor : Flavor) : Scalar → String
  | .null => "NULL"
  | .bool b =>
    if flavor = .mssql then (if b then "1" else "0") else (if b then "TRUE" else "FALSE")
  | .f64 x => x.text .statement
  | .i16 n => toString n.toInt
  | .i32 n => toString n.toInt
  | .i64 n => toString n.toInt
  | .string s => stringLiteral s

/-! ## Layout -/

/-- The text of fragments of which the first value is the `n`-th of the statement. -/
def textFrom (format : Format) : Nat → List Fragment → String
  | _, [] => ""
  | n, .text s :: rest => s ++ textFrom format n rest
  | n, .table name :: rest => format.tablePrefix ++ name ++ textFrom format n rest
  | n, .value v :: rest =>
    (match format.style with
      | .inline => literal format.flavor v
      | .placeholders => format.flavor.placeholder n) ++ textFrom format (n + 1) rest

def values (fragments : List Fragment) : List Scalar :=
  fragments.filterMap fun
    | .value v => some v
    | _ => none

def layout (format : Format) (fragments : List Fragment) : String :=
  textFrom format 1 fragments

/-- The values that are handed over beside the text. -/
def bound (format : Format) (fragments : List Fragment) : List Scalar :=
  match format.style with
  | .inline => []
  | .placeholders => values fragments

/-! ## Building fragments -/

/-- Groups of fragments with a text between them. -/
def separated (s : String) : List (List Fragment) → List Fragment
  | [] => []
  | [g] => g
  | g :: h :: rest => g ++ .text s :: separated s (h :: rest)

def commas (groups : List (List Fragment)) : List Fragment :=
  separated ", " groups

mutual
/-- A value: a single one, or a list between parentheses.  The empty list is written as a list of
one null, which contains nothing. -/
def ofValue : Value → List Fragment
  | .scalar v => [.value v]
  | .list [] => [.text "(NULL)"]
  | .list (v :: rest) => .text "(" :: ofValue v ++ ofRest rest ++ [.text ")"]

def ofRest : List Value → List Fragment
  | [] => []
  | v :: rest => .text ", " :: ofValue v ++ ofRest rest
end

end Sql
end RowGraph
