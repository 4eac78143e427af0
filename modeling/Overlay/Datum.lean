import Overlay.Binary64
import Overlay.Value

/-!
# Plain data

A value of another format becomes a bound value by way of plain data, which have no
format.  Not all plain data can be bound: the tables of a bound value have texts as
keys, and a format may have keys without a text, such as lists.  A float that is no
number is no such obstacle, it becomes null.
-/

namespace Overlay

/-- Plain data.  The keys of a table are given by their texts, `none` if there is none. -/
inductive Datum where
  | bool (value : Bool)
  | int (value : Int)
  | float (bits : UInt64)
  | text (value : String)
  | list (items : List Datum)
  | table (fields : List (Option String × Datum))
  deriving Inhabited

/-- Why data cannot be bound. -/
inductive DatumFault where
  | keyNotText
  deriving DecidableEq, Inhabited

/-- The fault in words. -/
def DatumFault.message : DatumFault → String
  | .keyNotText => "key must be a string"

namespace Datum

mutual

/-- The bound value for data, or the first fault in them. -/
def bound : Datum → Except DatumFault Value
  | .bool value => .ok (.bool value)
  | .int value => .ok (.int value)
  | .float bits => .ok (if Binary64.isFinite bits then .float bits else .null)
  | .text value => .ok (.text value)
  | .list items => do
      let values ← boundAll items
      .ok (.list values)
  | .table fields => do
      let values ← boundFields fields
      .ok (.tableOf values)

/-- The bound values for the items of a list. -/
def boundAll : List Datum → Except DatumFault (List Value)
  | [] => .ok []
  | item :: rest => do
      let first ← bound item
      let others ← boundAll rest
      .ok (first :: others)

/-- The bound values for the fields of a table. -/
def boundFields : List (Option String × Datum) → Except DatumFault (List (String × Value))
  | [] => .ok []
  | (none, _) :: _ => .error .keyNotText
  | (some name, datum) :: rest => do
      let first ← bound datum
      let others ← boundFields rest
      .ok ((name, first) :: others)

end

end Datum

end Overlay
