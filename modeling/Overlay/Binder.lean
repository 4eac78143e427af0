import Overlay.OrderedMap
import Overlay.Value

/-!
# Binders

A binder collects what modules bind.  The last value bound to a key wins, and the
key keeps the place of its first binding.
-/

namespace Overlay

/-- Bound values by key, in the order in which the keys were first bound. -/
abbrev Binder := OrderedMap String Value

namespace Binder

/-- Binds `key` to `value`, replacing an earlier value. -/
def bind (binder : Binder) (key : String) (value : Value) : Binder :=
  binder.insert key value

/-- The value of `key` if it is a text. -/
def getText? (binder : Binder) (key : String) : Option String :=
  match binder.get? key with
  | some (.text value) => some value
  | _ => none

/-- Whether two binders bind the same keys to the same values, in whatever order
the keys were bound. -/
def same (left right : Binder) : Bool :=
  left.size == right.size &&
    left.entries.all fun (key, value) =>
      match right.get? key with
      | some other => value.same other
      | none => false

end Binder

/-- What a module contributes when it is configured: pairs that it binds in
order.  `deprecated` is the module's own mark, which a contribution may set
aside. -/
structure ModuleUnit where
  bindings : List (String × Value)
  deprecated : Bool
  deriving Inhabited

namespace ModuleUnit

/-- Binds the pairs of the unit in order. -/
def configure (unit : ModuleUnit) (binder : Binder) : Binder :=
  unit.bindings.foldl (fun bound pair => Binder.bind bound pair.1 pair.2) binder

end ModuleUnit

end Overlay
