/-!
# Bound values

What a module binds to a key: plain data as found in configuration files.  An
integer and a float are different values even where they are numerically equal,
so a float is kept as the bits of its binary64 form.  The fields of a table
stand in the order of their keys, which makes the order in which a table was
written invisible.
-/

namespace Overlay

/-- A bound value. -/
inductive Value where
  | null
  | bool (value : Bool)
  | int (value : Int)
  | float (bits : UInt64)
  | text (value : String)
  | list (items : List Value)
  | table (fields : List (String × Value))
  deriving Inhabited

namespace Value

/-- Puts a field at its place in key order; a later value replaces an earlier one. -/
def putField (name : String) (value : Value) : List (String × Value) → List (String × Value)
  | [] => [(name, value)]
  | (other, old) :: rest =>
      if name = other then (name, value) :: rest
      else if name < other then (name, value) :: (other, old) :: rest
      else (other, old) :: putField name value rest

/-- The table with the given fields, whatever their order. -/
def tableOf (fields : List (String × Value)) : Value :=
  .table (fields.foldl (fun sorted field => putField field.1 field.2 sorted) [])

/-- Whether the bits are those of positive or negative zero. -/
def isZero (bits : UInt64) : Bool := bits <<< 1 == 0

mutual

/-- Whether two values are the same.  The two zeros of binary64 are, an integer
and a float never are. -/
def same : Value → Value → Bool
  | .null, .null => true
  | .bool left, .bool right => left == right
  | .int left, .int right => left == right
  | .float left, .float right => left == right || (isZero left && isZero right)
  | .text left, .text right => left == right
  | .list left, .list right => sameItems left right
  | .table left, .table right => sameFields left right
  | _, _ => false

/-- Whether two lists hold the same values at the same places. -/
def sameItems : List Value → List Value → Bool
  | [], [] => true
  | left :: lefts, right :: rights => same left right && sameItems lefts rights
  | _, _ => false

/-- Whether two field lists agree in names and values. -/
def sameFields : List (String × Value) → List (String × Value) → Bool
  | [], [] => true
  | (name, left) :: lefts, (other, right) :: rights =>
      name == other && same left right && sameFields lefts rights
  | _, _ => false

end

end Value

end Overlay
