import Overlay.Contribution
import Overlay.Journal

/-!
# The roster of retained modules

Of all contributions to one identity the first is retained, with everything that
belongs to it; later ones leave no trace but an event.  The roster lists what is
retained in the order of first contribution.
-/

namespace Overlay

/-- What resolution knows about a retained module. -/
structure Descriptor where
  id : Identity
  name : String
  provider : String
  description : Option String
  deprecated : Bool
  overrides : IdentitySet
  configs : OrderedMap String String
  unit : ModuleUnit
  deriving Inhabited

namespace Descriptor

/-- The provider of a contribution that names none. -/
def unknownProvider : String := "<unknown>"

/-- The description of a contribution, with its names settled. -/
def ofContribution (contribution : Contribution) : Descriptor where
  id := contribution.id
  name := contribution.moduleName
  provider := contribution.provider.getD unknownProvider
  description := contribution.description
  deprecated := contribution.deprecated
  overrides := contribution.overrides
  configs := contribution.configs
  unit := contribution.unit

/-- What recognises the module. -/
def key (descriptor : Descriptor) : Identity.Key := descriptor.id.key

end Descriptor

/-- Retained modules, one for each identity, in the order of first contribution. -/
abbrev Roster := OrderedSet Descriptor.key

namespace Roster

open Journaled

/-- Offers one contribution to the roster. -/
def offer (roster : Roster) (contribution : Contribution) : Journaled Roster := do
  let descriptor := Descriptor.ofContribution contribution
  match roster.find? descriptor.key with
  | some retained =>
      emit (.skippedDuplicate descriptor.name descriptor.provider retained.provider)
      pure roster
  | none =>
      emit (.accepted descriptor.name descriptor.provider)
      emitIf descriptor.deprecated (.deprecated descriptor.name descriptor.description)
      pure (roster.insert descriptor)

/-- Offers contributions in order. -/
def offerAll (roster : Roster) : List Contribution → Journaled Roster
  | [] => pure roster
  | contribution :: rest => do
      let extended ← roster.offer contribution
      extended.offerAll rest

/-- The roster of a list of contributions. -/
def ofContributions (contributions : List Contribution) : Journaled Roster := do
  let roster ← offerAll .empty contributions
  log .debug
    s!"Deduplicated {contributions.length} contributions into {roster.size} modules"
  pure roster

end Roster

end Overlay
