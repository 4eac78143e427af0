/-!
# JSON documents

The tree of a JSON text.  Members of an object keep their order and their
repetitions, and a number keeps its spelling, because what these mean is for the
reader of the tree to decide.  A text may spell half of a surrogate pair, which
is no character: such a text can be skipped but not used.
-/

namespace Overlay

namespace Json

/-- The contents of a JSON string. -/
inductive Text where
  | plain (value : String)
  /-- The escapes leave half of a surrogate pair alone. -/
  | unpaired
  deriving DecidableEq, Inhabited

/-- The characters of the string, if its escapes spell characters. -/
def Text.value? : Text → Option String
  | .plain value => some value
  | .unpaired => none

end Json

/-- A JSON document. -/
inductive Json where
  | null
  | bool (value : Bool)
  | number (spelling : String)
  | string (text : Json.Text)
  | array (items : List Json)
  | object (members : List (Json.Text × Json))
  deriving Inhabited

namespace Json

/-- The string with the given characters. -/
def text (value : String) : Json := .string (.plain value)

/-- The string, or null where there is none. -/
def optionalText : Option String → Json
  | some value => text value
  | none => .null

/-- The object with the given members. -/
def record (members : List (String × Json)) : Json :=
  .object (members.map fun member => (.plain member.1, member.2))

end Json

end Overlay
