import Overlay.Proofs.Layers

/-!
# Visits of a composition

A tree of overrides is run over in two ways: to have its modules take effect, and to list
their names and units.  Both visit the nodes in one order, which `nodes` spells out: the trees
below a node, one after the other, and then the node.  Whatever is done at the nodes, doing it
along the recursion is doing it along this list.
-/

namespace Overlay

namespace Composition

/-- What the outermost module binds. -/
def unit : Composition → ModuleUnit
  | .leaf _ unit => unit
  | .layered _ _ unit => unit

@[simp] theorem name_leaf (name : String) (unit : ModuleUnit) :
    (leaf name unit).name = name := rfl

@[simp] theorem name_layered (bases : List Composition) (name : String) (unit : ModuleUnit) :
    (layered bases name unit).name = name := rfl

@[simp] theorem unit_leaf (name : String) (unit : ModuleUnit) :
    (leaf name unit).unit = unit := rfl

@[simp] theorem unit_layered (bases : List Composition) (name : String) (unit : ModuleUnit) :
    (layered bases name unit).unit = unit := rfl

mutual

/-- How many modules there are in the tree. -/
def size : Composition → Nat
  | .leaf .. => 1
  | .layered bases .. => sizeOfAll bases + 1

/-- How many modules there are in several trees. -/
def sizeOfAll : List Composition → Nat
  | [] => 0
  | base :: rest => size base + sizeOfAll rest

end

mutual

/-- The nodes of the tree, each with the tree below it, overridden modules first. -/
def nodes : Composition → List Composition
  | .leaf name unit => [.leaf name unit]
  | .layered bases name unit => nodesOfAll bases ++ [.layered bases name unit]

/-- The nodes of several trees, one tree after the other. -/
def nodesOfAll : List Composition → List Composition
  | [] => []
  | base :: rest => nodes base ++ nodesOfAll rest

end

theorem nodesOfAll_eq_flatMap (compositions : List Composition) :
    nodesOfAll compositions = compositions.flatMap nodes := by
  induction compositions with
  | nil => simp [nodesOfAll]
  | cons base rest ih => simp [nodesOfAll, ih]

section Visiting

variable {σ : Type} (visitor : σ → String → ModuleUnit → σ)

mutual

/-- Visits the modules of the tree, overridden modules first. -/
def visit : Composition → σ → σ
  | .leaf name unit, state => visitor state name unit
  | .layered bases name unit, state => visitor (visitAll bases state) name unit

/-- Visits the modules of several trees, one tree after the other. -/
def visitAll : List Composition → σ → σ
  | [], state => state
  | base :: rest, state => visitAll rest (visit base state)

end

mutual

theorem visit_eq_foldl (composition : Composition) (state : σ) :
    composition.visit visitor state =
      composition.nodes.foldl (fun reached node => visitor reached node.name node.unit) state := by
  match composition with
  | .leaf name unit => simp [visit, nodes]
  | .layered bases name unit =>
      simp [visit, nodes, visitAll_eq_foldl bases]

theorem visitAll_eq_foldl (compositions : List Composition) (state : σ) :
    visitAll visitor compositions state =
      (nodesOfAll compositions).foldl
        (fun reached node => visitor reached node.name node.unit) state := by
  match compositions with
  | [] => simp [visitAll, nodesOfAll]
  | base :: rest =>
      simp [visitAll, nodesOfAll, visit_eq_foldl base, visitAll_eq_foldl rest]

end

end Visiting

mutual

theorem length_nodes (composition : Composition) :
    composition.nodes.length = composition.size := by
  match composition with
  | .leaf name unit => simp [nodes, size]
  | .layered bases name unit => simp [nodes, size, length_nodesOfAll bases]

theorem length_nodesOfAll (compositions : List Composition) :
    (nodesOfAll compositions).length = sizeOfAll compositions := by
  match compositions with
  | [] => simp [nodesOfAll, sizeOfAll]
  | base :: rest => simp [nodesOfAll, sizeOfAll, length_nodes base, length_nodesOfAll rest]

end

mutual

/-- Layers are what stands at the nodes. -/
theorem layers_eq_nodes (composition : Composition) :
    composition.layers = composition.nodes.map fun node => (node.name, node.unit) := by
  match composition with
  | .leaf name unit => simp [layers, nodes]
  | .layered bases name unit =>
      simp [layers, nodes, layersOfAll_eq_nodes bases]

theorem layersOfAll_eq_nodes (compositions : List Composition) :
    layersOfAll compositions =
      (nodesOfAll compositions).map fun node => (node.name, node.unit) := by
  match compositions with
  | [] => simp [layersOfAll, nodesOfAll]
  | base :: rest =>
      simp [layersOfAll, nodesOfAll, layers_eq_nodes base, layersOfAll_eq_nodes rest]

end

/-- The last node is the tree itself. -/
theorem getLast?_nodes (composition : Composition) :
    composition.nodes.getLast? = some composition := by
  cases composition with
  | leaf name unit => simp [nodes]
  | layered bases name unit => simp [nodes]

section Splitting

/-- What stands in two lists together stands in the first or, behind it, in the second. -/
theorem split_of_append {α : Type} {left right before after : List α} {item : α}
    (split : left ++ right = before ++ item :: after) :
    (∃ between, left = before ++ item :: between) ∨
      ∃ between, before = left ++ between ∧ right = between ++ item :: after := by
  rcases List.append_eq_append_iff.mp split with behind | within
  · exact .inr behind
  · rcases within with ⟨between, placed, following⟩
    cases between with
    | nil => exact .inr ⟨[], by simpa using placed.symm, by simpa using following.symm⟩
    | cons head rest =>
        rw [List.cons_append, List.cons.injEq] at following
        exact .inl ⟨rest, following.1 ▸ placed⟩

variable {bases : List Composition} {name : String} {unit : ModuleUnit}

mutual

/-- The nodes of the trees below a node stand directly before it. -/
theorem nodesOfAll_suffix (composition : Composition) {before after : List Composition}
    (split : composition.nodes = before ++ .layered bases name unit :: after) :
    nodesOfAll bases <:+ before := by
  match composition with
  | .leaf other otherUnit =>
      cases before <;> simp [nodes] at split
  | .layered below other otherUnit =>
      rw [nodes] at split
      rcases split_of_append split with inBelow | atTop
      · rcases inBelow with ⟨between, split⟩
        exact nodesOfAll_suffix_of_all below split
      · rcases atTop with ⟨between, placed, top⟩
        cases between with
        | nil =>
            simp only [List.nil_append, List.cons.injEq, layered.injEq] at top
            rw [placed, top.1.1]
            simp
        | cons head rest => simp at top

theorem nodesOfAll_suffix_of_all (compositions : List Composition)
    {before after : List Composition}
    (split : nodesOfAll compositions = before ++ .layered bases name unit :: after) :
    nodesOfAll bases <:+ before := by
  match compositions with
  | [] => simp [nodesOfAll] at split
  | base :: rest =>
      rw [nodesOfAll] at split
      rcases split_of_append split with inBase | inRest
      · rcases inBase with ⟨between, split⟩
        exact nodesOfAll_suffix base split
      · rcases inRest with ⟨between, placed, split⟩
        rw [placed]
        exact (nodesOfAll_suffix_of_all rest split).trans (List.suffix_append _ _)

end

end Splitting

end Composition

/-- The recursions over the tree of a module agree with one another. -/
structure EffectiveModule.VisitsAgree (module : EffectiveModule) : Prop where
  /-- Whatever the units do, and to whatever, they do it one after the other. -/
  takesEffect : ∀ {σ : Type} (effect : ModuleUnit → σ → σ) (state : σ),
    module.composition.configureWith effect state =
      module.units.foldl (fun reached unit => effect unit reached) state
  configures : ∀ binder,
    module.configure binder = module.units.foldl (fun bound unit => unit.configure bound) binder
  /-- Names and units are what visits collect, each on its own. -/
  layers_eq_visit : module.layers =
    module.composition.visit (fun names name _ => names ++ [name]) []
  units_eq_visit : module.units =
    module.composition.visit (fun units _ unit => units ++ [unit]) []
  length_layers : module.layers.length = module.composition.size
  length_units : module.units.length = module.composition.size
  /-- The name and the unit at one place belong to one node. -/
  layers_eq_nodes : module.layers = module.composition.nodes.map Composition.name
  units_eq_nodes : module.units = module.composition.nodes.map Composition.unit
  last_layer : module.layers.getLast? = some module.composition.name
  /-- The layers of what a node is on top of stand in one piece directly before its name. -/
  bases_before : ∀ before bases name unit after,
    module.composition.nodes = before ++ .layered bases name unit :: after →
      ∃ earlier, before = earlier ++ bases.flatMap Composition.nodes ∧
        module.layers = earlier.map Composition.name ++
          (bases.flatMap fun base => base.layers.map Prod.fst) ++
            name :: after.map Composition.name

/-- Whatever the tree, however deep and with however many branches, its visits agree. -/
theorem EffectiveModule.visits_agree (module : EffectiveModule) : module.VisitsAgree := by
  have layers : module.layers = module.composition.nodes.map Composition.name := by
    simp [EffectiveModule.layers, Composition.layers_eq_nodes]
  have units : module.units = module.composition.nodes.map Composition.unit := by
    simp [EffectiveModule.units, Composition.layers_eq_nodes]
  constructor
  case takesEffect =>
    intro σ effect state
    rw [Composition.configureWith_eq_foldl, EffectiveModule.units, List.foldl_map]
  case configures =>
    intro binder
    rw [EffectiveModule.configure, Composition.configure_eq_foldl, EffectiveModule.units,
      List.foldl_map]
  case layers_eq_visit =>
    rw [layers, Composition.visit_eq_foldl, List.foldl_append_eq_append, List.nil_append,
      ← List.flatMap_def, ← List.map_eq_flatMap]
  case units_eq_visit =>
    rw [units, Composition.visit_eq_foldl, List.foldl_append_eq_append, List.nil_append,
      ← List.flatMap_def, ← List.map_eq_flatMap]
  case length_layers => simp [layers, Composition.length_nodes]
  case length_units => simp [units, Composition.length_nodes]
  case layers_eq_nodes => exact layers
  case units_eq_nodes => exact units
  case last_layer => simp [layers, Composition.getLast?_nodes]
  case bases_before =>
    intro before bases name unit after split
    rcases Composition.nodesOfAll_suffix _ split with ⟨earlier, joined⟩
    rw [Composition.nodesOfAll_eq_flatMap] at joined
    refine ⟨earlier, joined.symm, ?_⟩
    rw [layers, split, ← joined]
    simp [Composition.layers_eq_nodes, List.map_flatMap, Function.comp_def]

end Overlay
