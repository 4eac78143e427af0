import Overlay.Proofs.Graph.SingleOverride
import Overlay.Proofs.PostOrder
import Overlay.Proofs.Retention

/-!
# Layers of effective modules

The layers of an effective module are its modules in the order in which they are
configured.  Configuring runs over a tree, listing layers flattens it; the two agree.
Folding keeps apart nothing that the tree below a module holds together: the layers of
what a node folds to are the post-order traversal of the tree below the node.  Together
with the traversal that the sweep makes, this ties the load order to the layers.
-/

namespace Overlay

open Relation

/-- A module as a layer: its name and what it binds. -/
def Descriptor.layer (descriptor : Descriptor) : String × ModuleUnit :=
  (descriptor.name, descriptor.unit)

namespace Composition

theorem layersOfAll_eq_flatMap (compositions : List Composition) :
    layersOfAll compositions = compositions.flatMap layers := by
  induction compositions with
  | nil => rfl
  | cons base rest ih => rw [layersOfAll, ih, List.flatMap_cons]

section Configuring

variable {σ : Type} (effect : ModuleUnit → σ → σ)

mutual

/-- The modules of a tree take effect layer after layer, whatever their effects are. -/
theorem configureWith_eq_foldl (composition : Composition) (state : σ) :
    composition.configureWith effect state =
      composition.layers.foldl (fun reached layer => effect layer.2 reached) state := by
  match composition with
  | .leaf name unit => rw [configureWith, layers, List.foldl_cons, List.foldl_nil]
  | .layered bases name unit =>
      rw [configureWith, layers, List.foldl_append, configureAllWith_eq_foldl bases,
        List.foldl_cons, List.foldl_nil]

theorem configureAllWith_eq_foldl (compositions : List Composition) (state : σ) :
    configureAllWith effect compositions state =
      (layersOfAll compositions).foldl (fun reached layer => effect layer.2 reached) state := by
  match compositions with
  | [] => rw [configureAllWith, layersOfAll, List.foldl_nil]
  | base :: rest =>
      rw [configureAllWith, layersOfAll, List.foldl_append, configureWith_eq_foldl base,
        configureAllWith_eq_foldl rest]

end

end Configuring

/-- Configuring a tree configures its layers one after the other. -/
theorem configure_eq_foldl (composition : Composition) (binder : Binder) :
    composition.configure binder =
      composition.layers.foldl (fun bound layer => layer.2.configure bound) binder :=
  composition.configureWith_eq_foldl ModuleUnit.configure binder

end Composition

/-- The layers of a module on top of others are theirs, in order, and then its own. -/
theorem EffectiveModule.layers_layered (descriptor : Descriptor) (bases : List EffectiveModule) :
    (layered descriptor bases).composition.layers =
      (bases.map fun base => base.composition.layers).flatten ++ [descriptor.layer] := by
  cases bases with
  | nil => rfl
  | cons base rest =>
      have covered : (base :: rest).isEmpty = false := rfl
      rw [layered, covered, if_neg Bool.false_ne_true, Composition.layers,
        Composition.layersOfAll_eq_flatMap, List.flatMap_map, ← List.flatMap_def]
      rfl

namespace FoldsTo

variable {ι : Type} {describe : ι → Descriptor} {bases : ι → List ι}

/-- The list is a traversal of the tree below the node, and the effect has exactly these
layers. -/
def Traversed (describe : ι → Descriptor) (bases : ι → List ι) (node : ι)
    (effect : EffectiveModule) : Prop :=
  ∃ block, PostOrder bases node block ∧
    effect.composition.layers = block.map fun member => (describe member).layer

theorem exists_blocks {nodes : List ι} {effects : List EffectiveModule}
    (each : List.Forall₂ (Traversed describe bases) nodes effects) :
    ∃ blocks, List.Forall₂ (PostOrder bases) nodes blocks ∧
      (effects.map fun effect => effect.composition.layers) =
        blocks.map fun block => block.map fun member => (describe member).layer := by
  induction each with
  | nil => exact ⟨[], .nil, rfl⟩
  | cons head _ ih =>
      rcases head with ⟨block, traversed, layers⟩
      rcases ih with ⟨blocks, each, layersOfRest⟩
      exact ⟨block :: blocks, .cons traversed each, by
        rw [List.map_cons, List.map_cons, layers, layersOfRest]⟩

/-- The layers of what a node folds to are the tree below it in post-order. -/
theorem traversed {node : ι} {effect : EffectiveModule}
    (folds : FoldsTo describe bases node effect) : Traversed describe bases node effect := by
  refine folds.induct (motive := Traversed describe bases) ?_
  intro node below _ hypotheses
  rcases exists_blocks hypotheses with ⟨blocks, each, layers⟩
  refine ⟨blocks.flatten ++ [node], .node each, ?_⟩
  rw [EffectiveModule.layers_layered, layers, List.map_append, List.map_flatten]
  rfl

end FoldsTo

namespace OverrideGraph

variable {graph : OverrideGraph}

theorem name_describe (graph : OverrideGraph) (index : Nat) :
    (graph.describe index).name = graph.name index := by
  rw [describe, name]
  cases graph.nodes[index]? with
  | none => rfl
  | some descriptor => rfl

/-- Folding in load order lists as layers, over all effective modules together, exactly
the modules of the load order. -/
theorem layers_fold_taken (consistent : graph.Consistent) (single : graph.SinglyOverridden)
    (acyclic : ¬ graph.Cyclic) :
    (graph.fold graph.finishedSweep.taken).flatMap (fun effect => effect.composition.layers) =
      graph.finishedSweep.taken.map fun index => (graph.describe index).layer := by
  have loadOrder := isLoadOrder_taken consistent acyclic
  have folded := fold_foldsTo consistent single
    (basesFirst_of_perm loadOrder.perm loadOrder.overridden_first)
  rw [loadOrder.outermost_in_order] at folded
  rcases FoldsTo.exists_blocks (folded.imp fun _ _ => FoldsTo.traversed) with
    ⟨blocks, each, layers⟩
  rcases taken_eq_flatten consistent single with ⟨others, othersEach, order⟩
  rw [List.flatMap_def, layers, order, PostOrder.unique_blocks each othersEach, List.map_flatten]

/-- Without double overrides and cycles the load order is the traversal of the trees of the
outermost modules, tree after tree.  Every tree in it stands in one piece, and the layers
of what the order folds to, read through, are its modules. -/
theorem loadOrder_eq_postOrder (roster : Roster)
    (single : (build roster).value.SinglyOverridden)
    (acyclic : ¬ (build roster).value.Cyclic) :
    let graph := (build roster).value
    ∃ order traversals,
      graph.loadOrder.value = .ok order ∧
      (∀ blocks, List.Forall₂ (PostOrder graph.successors) graph.outermost blocks ↔
        blocks = traversals) ∧
      order = traversals.flatten ∧
      (∀ index < graph.size, ∃ piece, PostOrder graph.successors index piece ∧
        piece <:+: order ∧ ∀ other, other ∈ piece ↔ ReflTransGen graph.Overrides index other) ∧
      (graph.fold order).flatMap EffectiveModule.layers = order.map graph.name := by
  intro graph
  have consistent : graph.Consistent := consistent_ofRoster roster
  rcases taken_eq_flatten consistent single with ⟨traversals, each, order⟩
  refine ⟨graph.finishedSweep.taken, traversals, ?_, ?_, order, ?_, ?_⟩
  · rw [value_loadOrder, orderOrCycle_of_not_cyclic consistent acyclic]
  · intro blocks
    constructor
    · exact fun alsoEach => PostOrder.unique_blocks alsoEach each
    · intro same
      rw [same]
      exact each
  · intro index bound
    have placed := (taken_perm consistent acyclic).mem_iff.mpr (List.mem_range.mpr bound)
    rw [order] at placed ⊢
    rcases List.mem_flatten.mp placed with ⟨block, member, visited⟩
    rcases exists_left_of_forall₂ each member with ⟨top, _, traversed⟩
    rcases traversed.exists_infix visited with ⟨piece, ofIndex, within⟩
    exact ⟨piece, ofIndex, within.trans (infix_flatten member), ofIndex.mem_iff⟩
  · have layers := congrArg (List.map Prod.fst) (layers_fold_taken consistent single acyclic)
    rw [List.map_flatMap, List.map_map] at layers
    exact layers.trans (List.map_congr_left fun index _ => name_describe graph index)

/-- Two trees, one of them of three generations, and an override of a module that is not
on the roster. -/
theorem loadOrder_of_two_trees :
    let roster := (Roster.ofContributions [
      .plain "upper" ["left", "absent", "right"], .plain "single" [], .plain "left" ["lower"],
      .plain "right" [], .plain "lower" []]).value
    let graph := (build roster).value
    graph.SinglyOverridden ∧ ¬ graph.Cyclic ∧ ∃ order traversals,
      graph.loadOrder.value = .ok order ∧
      (∀ blocks, List.Forall₂ (PostOrder graph.successors) graph.outermost blocks ↔
        blocks = traversals) ∧
      order = traversals.flatten ∧
      (∀ index < graph.size, ∃ piece, PostOrder graph.successors index piece ∧
        piece <:+: order ∧ ∀ other, other ∈ piece ↔ ReflTransGen graph.Overrides index other) ∧
      (graph.fold order).flatMap EffectiveModule.layers = order.map graph.name := by
  intro roster graph
  have consistent : graph.Consistent := consistent_ofRoster roster
  have single : graph.SinglyOverridden :=
    (doubleOverride?_eq_none_iff consistent).mp (by decide)
  have acyclic : ¬ graph.Cyclic :=
    consistent.not_cyclic_of_rank (fun index => [2, 0, 1, 0, 0][index]?.getD 0) (by decide)
  exact ⟨single, acyclic, loadOrder_eq_postOrder roster single acyclic⟩

end OverrideGraph

end Overlay
