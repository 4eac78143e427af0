import Overlay.Datum
import Overlay.Toml.Datetime

/-!
# TOML values

The values of a TOML document.  Tables keep the order of the document.  A
date-time is also seen as a table with one reserved key, which is how it appears
among bound values, and a table that starts with this key is read as the
date-time it spells.
-/

namespace Overlay.Toml

/-- A value of a TOML document. -/
inductive Value where
  | text (value : String)
  | integer (value : Int)
  | float (bits : UInt64)
  | boolean (value : Bool)
  | datetime (value : Datetime)
  | array (items : List Value)
  | table (entries : List (String × Value))
  deriving Inhabited

namespace Value

/-- The key under which a date-time appears as a table. -/
def datetimeKey : String := "$__toml_private_datetime"

/-- The text of the value, if it is one. -/
def text? : Value → Option String
  | .text value => some value
  | _ => none

/-- The truth value, if it is one. -/
def boolean? : Value → Option Bool
  | .boolean value => some value
  | _ => none

/-- The items of an array. -/
def items? : Value → Option (List Value)
  | .array items => some items
  | _ => none

/-- The entries of a table, or of a date-time seen as one. -/
def entries? : Value → Option (List (String × Value))
  | .table entries => some entries
  | .datetime value => some [(datetimeKey, .text value.text)]
  | _ => none

mutual

/-- The value with every table that spells a date-time replaced by it.  Such a
table has to hold a date-time under its first key. -/
def settle : Value → Option Value
  | .array items => (settleAll items).map .array
  | .table [] => some (.table [])
  | .table ((name, value) :: rest) =>
      if name = datetimeKey then do
        let spelled ← value.text?
        (Datetime.ofText? spelled).map .datetime
      else do
        let first ← settle value
        let others ← settleEntries rest
        some (.table ((name, first) :: others))
  | value => some value

/-- Settles the items of an array. -/
def settleAll : List Value → Option (List Value)
  | [] => some []
  | item :: rest => do
      let first ← settle item
      let others ← settleAll rest
      some (first :: others)

/-- Settles the entries of a table. -/
def settleEntries : List (String × Value) → Option (List (String × Value))
  | [] => some []
  | (name, value) :: rest => do
      let first ← settle value
      let others ← settleEntries rest
      some ((name, first) :: others)

end

mutual

/-- The value as plain data.  A date-time is a table with the reserved key. -/
def datum : Value → Datum
  | .text value => .text value
  | .integer value => .int value
  | .float bits => .float bits
  | .boolean value => .bool value
  | .datetime value => .table [(some datetimeKey, .text value.text)]
  | .array items => .list (datumAll items)
  | .table entries => .table (datumEntries entries)

/-- The items of an array as plain data. -/
def datumAll : List Value → List Datum
  | [] => []
  | item :: rest => datum item :: datumAll rest

/-- The entries of a table as plain data. -/
def datumEntries : List (String × Value) → List (Option String × Datum)
  | [] => []
  | (name, value) :: rest => (some name, datum value) :: datumEntries rest

end

mutual

/-- The bound value for a TOML value.  What is no number becomes null, and a
date-time becomes a table with the reserved key. -/
def bound : Value → Overlay.Value
  | .text value => .text value
  | .integer value => .int value
  | .float bits => if Binary64.isFinite bits then .float bits else .null
  | .boolean value => .bool value
  | .datetime value => .table [(datetimeKey, .text value.text)]
  | .array items => .list (boundAll items)
  | .table entries => .tableOf (boundEntries entries)

/-- The bound values for the items of an array. -/
def boundAll : List Value → List Overlay.Value
  | [] => []
  | item :: rest => bound item :: boundAll rest

/-- The bound values for the entries of a table. -/
def boundEntries : List (String × Value) → List (String × Overlay.Value)
  | [] => []
  | (name, value) :: rest => (name, bound value) :: boundEntries rest

end

end Value

end Overlay.Toml
