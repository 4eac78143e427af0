import Overlay.OverrideGraph
import Overlay.Text.Quoted

/-!
# Effective modules

Resolution leaves one effective module for each retained module that no other
overrides.  Its composition is the tree of everything it overrides, directly or
through others.  Configuring it configures the overridden modules first, so that
what an overrider binds stands.
-/

namespace Overlay

/-- A module together with the modules it overrides. -/
inductive Composition where
  /-- A module that overrides nothing. -/
  | leaf (name : String) (unit : ModuleUnit)
  /-- A module on top of those it overrides, in the order in which it declares them. -/
  | layered (bases : List Composition) (name : String) (unit : ModuleUnit)
  deriving Inhabited

namespace Composition

/-- The name of the outermost module. -/
def name : Composition → String
  | .leaf name _ => name
  | .layered _ name _ => name

section Configuring

-- What a unit does when it is configured is left open here, and what it acts on as well.
variable {σ : Type} (effect : ModuleUnit → σ → σ)

mutual

/-- Has the overridden modules take effect in order, then the module itself. -/
def configureWith : Composition → σ → σ
  | .leaf _ unit, state => effect unit state
  | .layered bases _ unit, state => effect unit (configureAllWith bases state)

/-- Has compositions take effect in order. -/
def configureAllWith : List Composition → σ → σ
  | [], state => state
  | base :: rest, state => configureAllWith rest (configureWith base state)

end

end Configuring

/-- Binds what the modules of the tree bind, overridden modules first. -/
def configure (composition : Composition) (binder : Binder) : Binder :=
  composition.configureWith ModuleUnit.configure binder

mutual

/-- The modules of the tree with their names, overridden modules first. -/
def layers : Composition → List (String × ModuleUnit)
  | .leaf name unit => [(name, unit)]
  | .layered bases name unit => layersOfAll bases ++ [(name, unit)]

/-- The modules of several trees, one tree after the other. -/
def layersOfAll : List Composition → List (String × ModuleUnit)
  | [] => []
  | base :: rest => layers base ++ layersOfAll rest

end

mutual

/-- The tree in one line. -/
def describe : Composition → String
  | .leaf name _ => name
  | .layered bases name _ => name ++ " over " ++ Text.bracketed (describeAll bases)

/-- Several trees, one line each. -/
def describeAll : List Composition → List String
  | [] => []
  | base :: rest => describe base :: describeAll rest

end

end Composition

/-- A module that none overrides, as it takes effect. -/
structure EffectiveModule where
  name : String
  provider : String
  description : Option String
  deprecated : Bool
  configs : OrderedMap String String
  composition : Composition
  deriving Inhabited

namespace EffectiveModule

/-- Whether the module overrides anything. -/
def isComposite (module : EffectiveModule) : Bool :=
  match module.composition with
  | .leaf .. => false
  | .layered .. => true

/-- The names of the modules in the tree, overridden modules first. -/
def layers (module : EffectiveModule) : List String :=
  module.composition.layers.map Prod.fst

/-- The units of the modules in the tree, overridden modules first. -/
def units (module : EffectiveModule) : List ModuleUnit :=
  module.composition.layers.map Prod.snd

/-- Binds what the modules of the tree bind. -/
def configure (module : EffectiveModule) (binder : Binder) : Binder :=
  module.composition.configure binder

/-- The effect of a module on top of the modules it overrides.  Declared settings
are merged with the overrider's label winning. -/
def layered (descriptor : Descriptor) (bases : List EffectiveModule) : EffectiveModule where
  name := descriptor.name
  provider := descriptor.provider
  description := descriptor.description
  deprecated := descriptor.deprecated
  configs :=
    (OrderedMap.ofList (bases.flatMap fun base => base.configs.entries)).extend
      descriptor.configs.entries
  composition :=
    if bases.isEmpty then .leaf descriptor.name descriptor.unit
    else .layered (bases.map composition) descriptor.name descriptor.unit

end EffectiveModule

/-- A fold in progress: a slot for each module that some other overrides, and the
effective modules found. -/
structure Folding where
  pending : List (Option EffectiveModule)
  finished : List EffectiveModule

namespace Folding

/-- Empties the slots of some modules and hands out what they held. -/
def withdraw : List Nat → List (Option EffectiveModule) →
    List EffectiveModule × List (Option EffectiveModule)
  | [], pending => ([], pending)
  | index :: rest, pending =>
      let (taken, left) := withdraw rest (pending.set index none)
      match pending[index]? with
      | some (some module) => (module :: taken, left)
      | _ => (taken, left)

/-- Folds one module with the modules it overrides. -/
def step (graph : OverrideGraph) (folding : Folding) (index : Nat) : Folding :=
  match graph.nodes[index]? with
  | none => folding
  | some descriptor =>
      let (bases, left) := withdraw (graph.successors index) folding.pending
      let module := EffectiveModule.layered descriptor bases
      if graph.isOverridden index then
        { folding with pending := left.set index (some module) }
      else
        { pending := left, finished := folding.finished ++ [module] }

end Folding

/-- Folds modules in the given order.  A module that is overridden waits in its
slot for the first overrider that comes after it. -/
def OverrideGraph.fold (graph : OverrideGraph) (order : List Nat) : List EffectiveModule :=
  (order.foldl (Folding.step graph) ⟨List.replicate graph.size none, []⟩).finished

end Overlay
