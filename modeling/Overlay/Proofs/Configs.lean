import Overlay.Proofs.OrderedMap
import Overlay.Proofs.Layers
import Overlay.Proofs.Resolution

/-!
# Declared settings

Folding merges the settings of a module tree by tree: the merged settings of the bases, one
base after the other, and on top of them what the module itself declares.  Merging layer by
layer, without regard to the tree, gives the same, because what a map has kept of some
insertions can replace them in front of any further ones.  So a path stands where the first
layer declares it and carries the label that the last layer gives it.
-/

namespace Overlay

open OverrideGraph

/-- The settings of a module on top of others are merged from everything that went into
theirs, in order, and then its own. -/
theorem EffectiveModule.configs_layered (descriptor : Descriptor) {bases : List EffectiveModule}
    {parts : List (List (String × String))}
    (merged : (bases.map EffectiveModule.configs) = parts.map OrderedMap.ofList) :
    (layered descriptor bases).configs =
      OrderedMap.ofList (parts.flatten ++ descriptor.configs.entries) := by
  have entries : (bases.flatMap fun base => base.configs.entries) =
      parts.flatMap fun pairs => (OrderedMap.ofList pairs).entries := by
    have both := congrArg (List.flatMap OrderedMap.entries) merged
    rwa [List.flatMap_map, List.flatMap_map] at both
  rw [OrderedMap.ofList, OrderedMap.extend_append, ← OrderedMap.extend_flatMap_entries_ofList,
    ← entries]
  rfl

namespace FoldsTo

variable {ι : Type} {describe : ι → Descriptor} {bases : ι → List ι}

/-- Effects whose settings are known from every traversal, over given traversals. -/
theorem map_configs_eq {nodes : List ι} {below : List EffectiveModule} {blocks : List (List ι)}
    (known : List.Forall₂ (fun node effect => ∀ block, PostOrder bases node block →
      effect.configs =
        OrderedMap.ofList (block.flatMap fun member => (describe member).configs.entries))
      nodes below)
    (traversed : List.Forall₂ (PostOrder bases) nodes blocks) :
    below.map EffectiveModule.configs =
      (blocks.map fun block => block.flatMap fun member =>
        (describe member).configs.entries).map OrderedMap.ofList := by
  induction known generalizing blocks with
  | nil =>
      cases traversed
      rfl
  | cons head _ ih =>
      cases traversed with
      | cons first rest => rw [List.map_cons, List.map_cons, List.map_cons, head _ first, ih rest]

/-- However the tree below a node is nested, its settings are those of the nodes visited by a
traversal, inserted one after the other. -/
theorem configs_eq {node : ι} {effect : EffectiveModule} {block : List ι}
    (folds : FoldsTo describe bases node effect) (traversed : PostOrder bases node block) :
    effect.configs =
      OrderedMap.ofList (block.flatMap fun member => (describe member).configs.entries) := by
  refine folds.induct (motive := fun node effect => ∀ block, PostOrder bases node block →
    effect.configs =
      OrderedMap.ofList (block.flatMap fun member => (describe member).configs.entries))
    ?_ block traversed
  intro node below _ known block traversed
  cases traversed with
  | node each =>
      rw [EffectiveModule.configs_layered _ (map_configs_eq known each), List.flatMap_append,
        List.flatMap_singleton, List.flatMap_def, List.map_flatten, List.flatten_flatten,
        List.map_map]
      rfl

end FoldsTo

/-! ## Layer by layer -/

/-- The settings that modules declare, inserted module after module. -/
structure MergedInOrder (layers : List Contribution) (configs : OrderedMap String String) :
    Prop where
  flat : configs =
    layers.foldl (fun merged layer => merged.extend layer.configs.entries) OrderedMap.empty
  /-- Paths stand in the order of their first declaration. -/
  keys : configs.keys = firsts id (layers.flatMap fun layer => layer.configs.keys)
  /-- A path has the label of the last module that declares it. -/
  get? : ∀ path, configs.get? path =
    layers.reverse.findSome? fun layer => layer.configs.get? path

theorem get?_foldl_extend (layers : List Contribution) (path : String) :
    (layers.foldl (fun merged layer => merged.extend layer.configs.entries)
      OrderedMap.empty).get? path =
      layers.reverse.findSome? fun layer => layer.configs.get? path := by
  induction layers using List.reverseRecOn with
  | nil => rfl
  | append_singleton layers last ih =>
      rw [List.foldl_append, List.foldl_cons, List.foldl_nil, OrderedMap.get?_extend,
        OrderedMap.find?_reverse last.configs.distinct, ih, List.reverse_append,
        List.reverse_singleton, List.singleton_append, List.findSome?_cons, ← OrderedMap.get?]
      cases last.configs.get? path <;> rfl

theorem mergedInOrder_ofList (layers : List Contribution) :
    MergedInOrder layers
      (OrderedMap.ofList (layers.flatMap fun layer => layer.configs.entries)) := by
  have flat : OrderedMap.ofList (layers.flatMap fun layer => layer.configs.entries) =
      layers.foldl (fun merged layer => merged.extend layer.configs.entries) OrderedMap.empty := by
    rw [OrderedMap.ofList, OrderedMap.extend, List.foldl_flatMap]
    rfl
  constructor
  case flat => exact flat
  case keys =>
    rw [OrderedMap.keys_ofList, List.map_flatMap]
    rfl
  case get? =>
    intro path
    rw [flat, get?_foldl_extend]

/-- However deep and wide the overrides below an effective module are, its settings are those
that its layers declare, merged layer by layer from the innermost to the outermost. -/
theorem configs_mergedInOrder {contributions : List Contribution}
    {effective : List EffectiveModule}
    (resolved : (resolve contributions).value = .ok effective) :
    List.Forall₂ (fun module effect => ∃ layers,
        PostOrder (Declared.bases (retained contributions)) module layers ∧
        effect.composition.layers = layers.map (fun layer => (layer.moduleName, layer.unit)) ∧
        MergedInOrder layers effect.configs)
      (Declared.outermost (retained contributions)) effective := by
  refine (folds_of_resolved resolved).2.2.imp ?_
  intro module effect folds
  rcases folds.traversed with ⟨layers, traversed, composed⟩
  refine ⟨layers, traversed, composed, ?_⟩
  rw [folds.configs_eq traversed]
  exact mergedInOrder_ofList layers

/-- A module over two others, one of them over a third, all of which declare one path. -/
theorem configs_of_two_branches :
    let declaring (module : Contribution) (configs : List (String × String)) : Contribution :=
      { module with configs := .ofList configs }
    let contributions := [
      declaring (.plain "upper" ["middle", "right"]) [("log.format", "u8"), ("log.level", "u8")],
      declaring (.plain "lower" []) [("log.level", "text"), ("log.target", "text")],
      declaring (.plain "right" []) [("log.target", "path"), ("log.rate", "f64")],
      declaring (.plain "middle" ["lower"]) [("log.level", "i64")]]
    ∃ effective, (resolve contributions).value = .ok effective ∧
      List.Forall₂ (fun module effect => ∃ layers,
          PostOrder (Declared.bases (retained contributions)) module layers ∧
          effect.composition.layers = layers.map (fun layer => (layer.moduleName, layer.unit)) ∧
          MergedInOrder layers effect.configs)
        (Declared.outermost (retained contributions)) effective := by
  intro declaring contributions
  have resolved : ∃ effective, (resolve contributions).value = .ok effective := by
    have consistent := resolutionGraph_consistent contributions
    refine ⟨_, resolve_eq_ok_iff.mpr ⟨?_, ?_, rfl⟩⟩
    · rw [← doubleOverride?_eq_none_iff consistent]
      decide
    · exact consistent.not_cyclic_of_rank (fun index => [2, 0, 0, 1][index]?.getD 0) (by decide)
  rcases resolved with ⟨effective, resolved⟩
  exact ⟨effective, resolved, configs_mergedInOrder resolved⟩

end Overlay
