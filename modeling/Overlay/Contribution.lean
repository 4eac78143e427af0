import Overlay.Binder
import Overlay.Identity

/-!
# Contributions and their drafts

A contribution packages one module unit with what resolution needs to know about
it.  It is written as a draft first.  The two differ in the deprecation flag
only: a draft tells "not said" from "said to be current", a contribution has
settled the question.  Turning a contribution back into a draft therefore loses
nothing that a later step could observe.
-/

namespace Overlay

/-- A module unit with its metadata, as contributed by one origin. -/
structure Contribution where
  unit : ModuleUnit
  id : Identity
  name : Option String
  provider : Option String
  description : Option String
  deprecated : Bool
  overrides : IdentitySet
  configs : OrderedMap String String
  deriving Inhabited

/-- A contribution in the making. -/
structure Draft where
  unit : ModuleUnit
  id : Identity
  name : Option String
  provider : Option String
  description : Option String
  deprecated : Option Bool
  overrides : IdentitySet
  configs : OrderedMap String String

namespace Contribution

/-- The explicit name, or else the default name of the identity. -/
def moduleName (contribution : Contribution) : String :=
  contribution.name.getD contribution.id.defaultName

/-- Names a provider unless one was named already. -/
def orProvider (contribution : Contribution) (provider : String) : Contribution :=
  { contribution with provider := contribution.provider.or (some provider) }

/-- A draft that starts out as the contribution is. -/
def toDraft (contribution : Contribution) : Draft where
  unit := contribution.unit
  id := contribution.id
  name := contribution.name
  provider := contribution.provider
  description := contribution.description
  deprecated := some contribution.deprecated
  overrides := contribution.overrides
  configs := contribution.configs

end Contribution

namespace Draft

/-- A draft for a unit with a given identity.  Only a unit that marks itself as
deprecated settles the flag. -/
def identified (id : Identity) (unit : ModuleUnit) : Draft where
  unit := unit
  id := id
  name := none
  provider := none
  description := none
  deprecated := if unit.deprecated then some true else none
  overrides := .empty
  configs := .empty

/-- A draft for a module of a type: every module of the type is the same module. -/
def ofType (tag name : String) (unit : ModuleUnit) : Draft :=
  identified (.typed tag name) unit

/-- A draft for a unit shared under a name.  No type identifies it, so it gets an
identity of its own. -/
def shared (fresh : Uuid) (name : String) (unit : ModuleUnit) : Draft :=
  { identified (.synthetic fresh) unit with name := some name }

/-- A draft for bindings that belong to no module type. -/
def ofBindings (fresh : Uuid) (name : String) (bindings : List (String × Value)) : Draft :=
  shared fresh name ⟨bindings, false⟩

/-- Settles the draft: a module that was not said to be deprecated is current. -/
def build (draft : Draft) : Contribution where
  unit := draft.unit
  id := draft.id
  name := draft.name
  provider := draft.provider
  description := draft.description
  deprecated := draft.deprecated.getD false
  overrides := draft.overrides
  configs := draft.configs

/-- One addition to a draft. -/
inductive Step where
  | name (text : String)
  | description (text : String)
  | provider (name : String)
  | deprecated (flag : Bool)
  | overrides (target : Identity)
  | overridesAll (targets : List Identity)
  | config (path label : String)
  /-- Builds the contribution, names its provider unless it has one, and goes on. -/
  | orProvider (name : String)
  /-- Builds the contribution and goes on from there. -/
  | rebuild

/-- Performs one addition. -/
def apply (draft : Draft) : Step → Draft
  | .name text => { draft with name := some text }
  | .description text => { draft with description := some text }
  | .provider name => { draft with provider := some name }
  | .deprecated flag => { draft with deprecated := some flag }
  | .overrides target => { draft with overrides := draft.overrides.insert target }
  | .overridesAll targets => { draft with overrides := draft.overrides.extend targets }
  | .config path label => { draft with configs := draft.configs.insert path label }
  | .orProvider name => (draft.build.orProvider name).toDraft
  | .rebuild => draft.build.toDraft

/-- Performs additions in order. -/
def applyAll (draft : Draft) (steps : List Step) : Draft := steps.foldl apply draft

end Draft

/-- The contribution with one more declared override. -/
def Contribution.overriding (contribution : Contribution) (target : Identity) : Contribution :=
  (contribution.toDraft.apply (.overrides target)).build

end Overlay
