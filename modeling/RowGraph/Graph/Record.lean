import RowGraph.Graph.Groups
import RowGraph.Statement.Select

/-!
Records: the graph of instances that a result describes.

The root rows become the root records, in the order in which they first appeared.  Under each record
come, link by link, the rows of the linked parameter that the link pairs with it.  A link starts at a
parameter that was there before it, so the links that can follow it are those after it in the list:
that is what the recursion below goes along.
-/

namespace RowGraph

/-- One instance in a result, with the records of every joined collection. -/
structure Record where
  descriptor : Descriptor
  /-- The parameter that the record was read from. -/
  param : String
  row : Row
  /-- The related records, by collection.  Collections that were not joined are absent. -/
  relations : List (String × List Record)

namespace Graph

def record (params : Parameters) (param : String) (row : Row)
    (relations : Keyed String (List Record)) : Outcome Record :=
  match params.find? param with
  | some d => .ok ⟨d, param, row, relations⟩
  | none => .error (.invalidResult (.unknownParameter param))

/-- Each collection once, with the records that the last link along it paired. -/
def merged (found : Keyed String (List Record)) : Keyed String (List Record) :=
  found.foldl (fun merged entry => merged.put entry.1 entry.2) []

/-- What the links pair with a row of a parameter, link by link. -/
def related (params : Parameters) (groups : Groups) :
    List Link → String → Row → Outcome (Keyed String (List Record))
  | [], _, _ => .ok []
  | link :: links, param, row => do
    if link.left = param then
      let records ← (groups.rows link.right).filterMapM fun candidate => do
        if ← link.pairs row candidate then
          let below ← related params groups links link.right candidate
          return some (← record params link.right candidate (merged below))
        else return none
      return (link.member, records) :: (← related params groups links param row)
    else related params groups links param row

/-- The record of a row together with all that is linked to it. -/
def recordOf (params : Parameters) (groups : Groups) (links : List Link) (param : String)
    (row : Row) : Outcome Record := do
  record params param row (merged (← related params groups links param row))

def hydrate (s : Select) (aliases : Sql.AliasTable) (rows : List Row) : Outcome (List Record) := do
  let groups ← Groups.ofRows s.params aliases rows
  (groups.rows s.rootName).mapM (recordOf s.params groups s.links s.rootName)

end Graph

namespace Record

def key? (r : Record) : Option Key :=
  (r.row.get r.descriptor.primaryKey).toKey?

def related? (r : Record) (member : String) : Option (List Record) :=
  Keyed.find? member r.relations

/-- A column as a program reads it.  A column that the statement left out reads as null. -/
def get (r : Record) (reading : Value.Reading) (column : String) : Outcome Value :=
  match (r.row.get column).readAs reading with
  | .ok v => .ok v
  | .error e => .error (e.because (.invalidResult (.unloadable r.descriptor.table column)))

/-- The column that stores a field, as a program reads it. -/
def field (r : Record) (reading : Value.Reading) (member : String) : Outcome Value :=
  match r.descriptor.storage? member with
  | some column => r.get reading column
  | none => .error (.invalidSchema (.noSuchMember r.descriptor.model member))

/-- The records of a collection of the model, if it was joined. -/
def collection (r : Record) (member : String) : Outcome (Option (List Record)) :=
  match r.descriptor.relation? member with
  | some _ => .ok (r.related? member)
  | none => .error (.invalidSchema (.unresolvableRelation r.descriptor.model member))

end Record
end RowGraph
