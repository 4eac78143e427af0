import Overlay.OrderedMap
import Overlay.Text.Hexadecimal

/-!
# Module identities

Two contributions describe the same module exactly when their identities are the
same.  A module type is recognised by its tag alone: the type name that comes
with it serves only for display, so `Identity.key` leaves it out and everything
that compares identities compares their keys.
-/

namespace Overlay

/-- A 128-bit identifier drawn at random or given in advance. -/
structure Uuid where
  bits : BitVec 128
  deriving DecidableEq, Inhabited

namespace Uuid

/-- The 32 hexadecimal digits, the most significant first. -/
def digits (uuid : Uuid) : List Char := Text.hexadecimalDigits 32 uuid.bits.toNat

/-- The digits in one run. -/
def simple (uuid : Uuid) : String := String.ofList uuid.digits

/-- The digits in groups of 8, 4, 4, 4 and 12. -/
def hyphenated (uuid : Uuid) : String :=
  let group (start length : Nat) := (uuid.digits.drop start).take length
  String.ofList (List.intercalate ['-']
    [group 0 8, group 8 4, group 12 4, group 16 4, group 20 12])

/-- Reads 32 hexadecimal digits; hyphens between them carry no meaning. -/
def ofText? (text : String) : Option Uuid := do
  let digits := text.toList.filter (· ≠ '-')
  let value ← Text.ofHexadecimal? digits
  if digits.length = 32 then some ⟨BitVec.ofNat 128 value⟩ else none

end Uuid

/-- What makes a module that module. -/
inductive Identity where
  /-- A module type, recognised by its tag. -/
  | typed (tag name : String)
  /-- A name chosen by the contributor. -/
  | named (name : String)
  /-- A one-off module that is the same as no other. -/
  | synthetic (uuid : Uuid)
  deriving Inhabited

namespace Identity

/-- The part of an identity that counts. -/
inductive Key where
  | typed (tag : String)
  | named (name : String)
  | synthetic (uuid : Uuid)
  deriving DecidableEq

/-- The part of the identity that counts: a type's name does not. -/
def key : Identity → Key
  | .typed tag _ => .typed tag
  | .named name => .named name
  | .synthetic uuid => .synthetic uuid

/-- Whether the identity was drawn for one module only. -/
def isSynthetic : Identity → Bool
  | .synthetic _ => true
  | _ => false

/-- The characters before the first double colon. -/
def beforeDoubleColon : List Char → List Char
  | ':' :: ':' :: _ => []
  | char :: rest => char :: beforeDoubleColon rest
  | [] => []

/-- The short form of a qualified type name: type arguments and the qualifying
path are dropped. -/
def shortTypeName (name : String) : String :=
  let bare := name.toList.takeWhile (· ≠ '<')
  String.ofList (beforeDoubleColon bare.reverse).reverse

/-- The name of a module that was given none. -/
def defaultName : Identity → String
  | .typed _ name => shortTypeName name
  | .named name => name
  | .synthetic uuid => "module-" ++ uuid.simple

/-- The identity as shown to a reader. -/
def display : Identity → String
  | .typed _ name => name
  | .named name => name
  | .synthetic uuid => "<synthetic " ++ uuid.hyphenated ++ ">"

end Identity

/-- Distinct identities in the order in which they were declared. -/
abbrev IdentitySet := OrderedSet Identity.key

end Overlay
