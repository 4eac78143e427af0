import Overlay.Proofs.Folding
import Overlay.Proofs.Retention

/-!
# What contributions declare

The override relation, its cycles and the trees below a module can be read off a list of
contributions without numbering them.  For a list of contributions to different modules
the two readings agree: numbering is an isomorphism between the relation declared here
and the edges of the graph.
-/

namespace Overlay

open Relation

/-- The first contribution claims to override the module of the second. -/
def Contribution.Declares (overrider target : Contribution) : Prop :=
  target.key ∈ overrider.overrides.elements.map Identity.key

instance (overrider target : Contribution) : Decidable (overrider.Declares target) :=
  inferInstanceAs (Decidable (target.key ∈ overrider.overrides.elements.map Identity.key))

namespace Declared

/-- One module on the list overrides another one. -/
def Overrides (modules : List Contribution) (overrider target : Contribution) : Prop :=
  overrider ∈ modules ∧ target ∈ modules ∧ overrider.Declares target

/-- Some module overrides itself, directly or through others. -/
def Cyclic (modules : List Contribution) : Prop :=
  ∃ module, TransGen (Overrides modules) module module

/-- A module on a cycle, or below one. -/
def BelowCycle (modules : List Contribution) (module : Contribution) : Prop :=
  ∃ member, TransGen (Overrides modules) member member ∧
    ReflTransGen (Overrides modules) member module

/-- No module has two overriders. -/
def SinglyOverridden (modules : List Contribution) : Prop :=
  ∀ first second target, Overrides modules first target → Overrides modules second target →
    first = second

/-- The modules on the list that a module overrides, in the order of its declarations. -/
def bases (modules : List Contribution) (module : Contribution) : List Contribution :=
  module.overrides.elements.filterMap fun target =>
    modules.find? fun candidate => candidate.key = target.key

/-- The modules that none on the list overrides. -/
def outermost (modules : List Contribution) : List Contribution :=
  modules.filter fun module => ¬ ∃ overrider ∈ modules, overrider.Declares module

/-- The tree of everything below a module: the module alone if it overrides none on the
list, and otherwise the module over the trees of those it overrides. -/
inductive OverrideTree (modules : List Contribution) : Contribution → Composition → Prop where
  | leaf {module : Contribution} (bare : bases modules module = []) :
      OverrideTree modules module (.leaf module.moduleName module.unit)
  | layered {module : Contribution} {trees : List Composition}
      (covered : bases modules module ≠ [])
      (below : List.Forall₂ (OverrideTree modules) (bases modules module) trees) :
      OverrideTree modules module (.layered trees module.moduleName module.unit)

/-- A module takes effect with its own metadata, composed as the tree below it. -/
structure TakesEffect (modules : List Contribution) (module : Contribution)
    (effect : EffectiveModule) : Prop where
  name : effect.name = module.moduleName
  provider : effect.provider = module.provider.getD Descriptor.unknownProvider
  description : effect.description = module.description
  deprecated : effect.deprecated = module.deprecated
  composition : OverrideTree modules module effect.composition

/-- The module with a number. -/
def pick (modules : List Contribution) (index : Nat) : Contribution :=
  modules[index]?.getD default

/-- The number of a module. -/
def place (modules : List Contribution) (module : Contribution) : Nat :=
  (modules.map Contribution.key).idxOf module.key

theorem getElem?_pick {modules : List Contribution} {index : Nat}
    (bound : index < modules.length) : modules[index]? = some (pick modules index) := by
  rw [pick, List.getElem?_eq_getElem bound, Option.getD_some]

theorem pick_mem {modules : List Contribution} {index : Nat}
    (bound : index < modules.length) : pick modules index ∈ modules :=
  List.mem_of_getElem? (getElem?_pick bound)

/-- Numbers in order pick the modules in order. -/
theorem map_pick_range (modules : List Contribution) :
    (List.range modules.length).map (pick modules) = modules := by
  apply List.ext_getElem
  · rw [List.length_map, List.length_range]
  · intro index _ bound
    rw [List.getElem_map, List.getElem_range, pick, List.getElem?_eq_getElem bound,
      Option.getD_some]

theorem map_pick_filter_range (modules : List Contribution) (keep : Contribution → Bool) :
    ((List.range modules.length).filter fun index => keep (pick modules index)).map
      (pick modules) = modules.filter keep := by
  conv_rhs => rw [← map_pick_range modules, List.filter_map]
  rfl

section Numbering

variable {modules : List Contribution} (distinct : (modules.map Contribution.key).Nodup)
include distinct

theorem pick_place {module : Contribution} (member : module ∈ modules) :
    pick modules (place modules module) = module := by
  have bound := List.idxOf_lt_length_of_mem (List.mem_map_of_mem (f := Contribution.key) member)
  have keyed : (modules.map Contribution.key)[place modules module]? = some module.key :=
    List.getElem?_eq_some_iff.mpr ⟨bound, List.getElem_idxOf bound⟩
  rw [List.getElem?_map] at keyed
  rcases Option.map_eq_some_iff.mp keyed with ⟨found, atPlace, same⟩
  rw [pick, atPlace, Option.getD_some]
  exact List.inj_on_of_nodup_map distinct (List.mem_of_getElem? atPlace) member same

theorem place_pick {index : Nat} (bound : index < modules.length) :
    place modules (pick modules index) = index := by
  have within : index < (modules.map Contribution.key).length := by
    rw [List.length_map]
    exact bound
  have keyed : (pick modules index).key = (modules.map Contribution.key)[index] := by
    rw [pick, List.getElem?_eq_getElem bound, Option.getD_some, List.getElem_map]
  rw [place, keyed]
  exact distinct.idxOf_getElem index within

end Numbering

/-! ## Bases -/

section Bases

variable {modules : List Contribution} (distinct : (modules.map Contribution.key).Nodup)
include distinct

/-- The bases of a module are the modules on the list that it claims to override. -/
theorem mem_bases_iff {module target : Contribution} :
    target ∈ bases modules module ↔ target ∈ modules ∧ module.Declares target := by
  simp only [bases, List.mem_filterMap, find?_key_eq_some_iff distinct, Contribution.Declares,
    List.mem_map]
  constructor
  · intro found
    obtain ⟨identity, declared, member, same⟩ := found
    exact ⟨member, identity, declared, same.symm⟩
  · intro found
    obtain ⟨member, identity, declared, same⟩ := found
    exact ⟨identity, declared, member, same.symm⟩

theorem bases_nodup (module : Contribution) : (bases modules module).Nodup := by
  have byKey : bases modules module = (module.overrides.elements.map Identity.key).filterMap
      fun wanted => modules.find? fun candidate => candidate.key = wanted := by
    rw [List.filterMap_map]
    rfl
  rw [byKey]
  refine List.Nodup.filterMap ?_ module.overrides.distinct
  intro left right target leftFound rightFound
  rw [← ((find?_key_eq_some_iff distinct).mp leftFound).2,
    ((find?_key_eq_some_iff distinct).mp rightFound).2]

/-- Without double overrides every module is outermost or the base of exactly one other. -/
theorem length_outermost_add (single : SinglyOverridden modules) :
    (outermost modules).length + (modules.flatMap (bases modules)).length = modules.length := by
  have each : (modules.flatMap (bases modules)).Nodup := by
    refine List.nodup_flatMap.mpr ⟨fun module _ => bases_nodup distinct module, ?_⟩
    refine (List.Nodup.of_map _ distinct).imp_of_mem ?_
    intro first second firstMember secondMember different target byFirst bySecond
    have firstDeclares := (mem_bases_iff distinct).mp byFirst
    have secondDeclares := (mem_bases_iff distinct).mp bySecond
    exact different (single first second target ⟨firstMember, firstDeclares⟩
      ⟨secondMember, secondDeclares⟩)
  have overridden : (modules.flatMap (bases modules)).Perm
      (modules.filter fun module => ∃ overrider ∈ modules, overrider.Declares module) := by
    rw [List.perm_ext_iff_of_nodup each ((List.Nodup.of_map _ distinct).filter _)]
    intro target
    simp only [List.mem_flatMap, mem_bases_iff distinct, List.mem_filter, decide_eq_true_eq]
    constructor
    · intro based
      obtain ⟨overrider, overriderMember, member, declares⟩ := based
      exact ⟨member, overrider, overriderMember, declares⟩
    · intro based
      obtain ⟨member, overrider, overriderMember, declares⟩ := based
      exact ⟨overrider, overriderMember, member, declares⟩
  rw [overridden.length_eq, outermost,
    List.length_eq_length_filter_add (l := modules)
      fun module => ¬ ∃ overrider ∈ modules, overrider.Declares module]
  simp only [decide_not, Bool.not_not]

end Bases

/-! ## The graph of a roster that lists the contributions -/

section Roster

open OverrideGraph

variable {modules : List Contribution} {roster : Roster}
  (listed : roster.elements = modules.map Descriptor.ofContribution)
include listed

theorem keys_nodup : (modules.map Contribution.key).Nodup := by
  have distinct := roster.distinct
  rw [listed, List.map_map] at distinct
  exact distinct

theorem size_eq : (ofRoster roster).size = modules.length := by
  have sizes : (ofRoster roster).size = roster.elements.length := rfl
  rw [sizes, listed, List.length_map]

theorem describe_eq {index : Nat} (bound : index < modules.length) :
    (ofRoster roster).describe index = Descriptor.ofContribution (pick modules index) := by
  have nodes : (ofRoster roster).nodes = roster.elements := rfl
  rw [describe, nodes, listed, List.getElem?_map, getElem?_pick bound]
  rfl

theorem overrides_iff {source target : Nat} :
    (ofRoster roster).Overrides source target ↔ source < modules.length ∧
      target < modules.length ∧ (pick modules source).Declares (pick modules target) := by
  rw [overrides_ofRoster_iff, listed]
  simp only [List.getElem?_map]
  constructor
  · intro edge
    rcases edge with ⟨overrider, found, atSource, atTarget, declared⟩
    rcases Option.map_eq_some_iff.mp atSource with ⟨first, firstFound, rfl⟩
    rcases Option.map_eq_some_iff.mp atTarget with ⟨second, secondFound, rfl⟩
    refine ⟨(List.getElem?_eq_some_iff.mp firstFound).1,
      (List.getElem?_eq_some_iff.mp secondFound).1, ?_⟩
    rw [pick, pick, firstFound, secondFound]
    exact declared
  · intro edge
    rcases edge with ⟨sourceBound, targetBound, declared⟩
    rw [getElem?_pick sourceBound, getElem?_pick targetBound]
    exact ⟨_, _, rfl, rfl, declared⟩

/-- An edge joins modules of which the first overrides the second. -/
theorem overrides_pick {source target : Nat} (edge : (ofRoster roster).Overrides source target) :
    Overrides modules (pick modules source) (pick modules target) := by
  rcases (overrides_iff listed).mp edge with ⟨sourceBound, targetBound, declared⟩
  exact ⟨pick_mem sourceBound, pick_mem targetBound, declared⟩

theorem overrides_place {overrider target : Contribution}
    (overrides : Overrides modules overrider target) :
    (ofRoster roster).Overrides (place modules overrider) (place modules target) := by
  have distinct := keys_nodup listed
  rcases overrides with ⟨overriderMember, targetMember, declared⟩
  have bound : ∀ module ∈ modules, place modules module < modules.length := by
    intro module member
    have within := List.idxOf_lt_length_of_mem (List.mem_map_of_mem (f := Contribution.key) member)
    rwa [List.length_map] at within
  refine (overrides_iff listed).mpr ⟨bound _ overriderMember, bound _ targetMember, ?_⟩
  rw [pick_place distinct overriderMember, pick_place distinct targetMember]
  exact declared

theorem cyclic_iff : (ofRoster roster).Cyclic ↔ Cyclic modules := by
  constructor
  · intro cyclic
    rcases cyclic with ⟨index, around⟩
    exact ⟨_, around.lift (pick modules) fun _ _ => overrides_pick listed⟩
  · intro cyclic
    rcases cyclic with ⟨module, around⟩
    exact ⟨_, around.lift (place modules) fun _ _ => overrides_place listed⟩

theorem belowCycle_iff {index : Nat} (bound : index < modules.length) :
    (ofRoster roster).BelowCycle index ↔ BelowCycle modules (pick modules index) := by
  constructor
  · intro below
    rcases below with ⟨member, around, path⟩
    exact ⟨_, around.lift (pick modules) fun _ _ => overrides_pick listed,
      path.lift (pick modules) fun _ _ => overrides_pick listed⟩
  · intro below
    rcases below with ⟨member, around, path⟩
    rw [← place_pick (keys_nodup listed) bound]
    exact ⟨_, around.lift (place modules) fun _ _ => overrides_place listed,
      path.lift (place modules) fun _ _ => overrides_place listed⟩

theorem singlyOverridden_iff :
    (ofRoster roster).SinglyOverridden ↔ SinglyOverridden modules := by
  have distinct := keys_nodup listed
  constructor
  · intro single first second target firstOverrides secondOverrides
    have same := single _ _ _ (overrides_place listed firstOverrides)
      (overrides_place listed secondOverrides)
    rw [← pick_place distinct firstOverrides.1, same, pick_place distinct secondOverrides.1]
  · intro single first second target firstEdge secondEdge
    have same := single _ _ _ (overrides_pick listed firstEdge) (overrides_pick listed secondEdge)
    rw [← place_pick distinct ((overrides_iff listed).mp firstEdge).1, same,
      place_pick distinct ((overrides_iff listed).mp secondEdge).1]

theorem map_pick_outermost :
    (ofRoster roster).outermost.map (pick modules) = outermost modules := by
  rw [OverrideGraph.outermost, size_eq listed, outermost, ← map_pick_filter_range]
  congr 1
  apply List.filter_congr
  intro index member
  have bound := List.mem_range.mp member
  rw [Bool.eq_iff_iff, Bool.not_eq_true', ← Bool.not_eq_true, decide_eq_true_eq, not_iff_not,
    (consistent_ofRoster roster).isOverridden_iff]
  constructor
  · intro overridden
    rcases overridden with ⟨source, edge⟩
    rcases overrides_pick listed edge with ⟨sourceMember, _, declared⟩
    exact ⟨_, sourceMember, declared⟩
  · intro overridden
    rcases overridden with ⟨overrider, overriderMember, declared⟩
    have edge := overrides_place listed ⟨overriderMember, pick_mem bound, declared⟩
    rw [place_pick (keys_nodup listed) bound] at edge
    exact ⟨_, edge⟩

open Classical in
/-- What the sweep leaves over are the modules on or below a declared cycle. -/
theorem map_pick_unresolved :
    ((ofRoster roster).unresolved (ofRoster roster).finishedSweep.counts).map (pick modules) =
      modules.filter fun module => BelowCycle modules module := by
  rw [← map_pick_filter_range, ← size_eq listed]
  congr 1
  rw [unresolved]
  apply List.filter_congr
  intro index member
  have bound := size_eq listed ▸ List.mem_range.mp member
  rw [decide_eq_decide, ← belowCycle_iff listed bound,
    ← mem_unresolved_iff_belowCycle (consistent_ofRoster roster), unresolved, List.mem_filter,
    decide_eq_true_eq]
  exact ⟨fun positive => ⟨member, positive⟩, fun both => both.2⟩

theorem name_eq {index : Nat} (bound : index < modules.length) :
    (ofRoster roster).name index = (pick modules index).moduleName := by
  have nodes : (ofRoster roster).nodes = roster.elements := rfl
  rw [name, nodes, listed, List.getElem?_map, getElem?_pick bound]
  rfl

/-- The bases of a module are the modules picked by its successors. -/
theorem map_pick_successors {index : Nat} (bound : index < modules.length) :
    ((ofRoster roster).successors index).map (pick modules) =
      bases modules (pick modules index) := by
  rw [successors_ofRoster, listed, List.getElem?_map, getElem?_pick bound, Option.map_some,
    Option.map_some, Option.getD_some, targets, bases, List.map_filterMap]
  apply List.filterMap_congr
  intro target _
  have found : roster.index? target.key =
      modules.findIdx? fun candidate => candidate.key = target.key := by
    rw [OrderedSet.index?, listed, List.findIdx?_map]
    rfl
  rw [found, List.find?_eq_bind_findIdx?_getElem?]
  cases located : modules.findIdx? fun candidate => candidate.key = target.key with
  | none => rfl
  | some place =>
      have within := (List.findIdx?_eq_some_iff_getElem.mp located).1
      exact (getElem?_pick within).symm

/-- The graph has an edge for every base of every module. -/
theorem edgeCount_eq : (ofRoster roster).edgeCount = (modules.flatMap (bases modules)).length := by
  have edges : (ofRoster roster).overridden =
      modules.map fun module => targets roster (Descriptor.ofContribution module) := by
    rw [overridden_ofRoster, listed, List.map_map]
    rfl
  rw [edgeCount, edges, ← List.flatMap_def, List.length_flatMap, List.length_flatMap]
  congr 2
  funext module
  rw [targets, bases, List.length_filterMap_eq_countP, List.length_filterMap_eq_countP]
  congr 1
  funext target
  rw [OrderedSet.index?, listed, List.findIdx?_map, List.findIdx?_isSome, List.isSome_find?]
  rfl

/-- What a node folds to, its contribution folds to. -/
theorem foldsTo_pick {index : Nat} {effect : EffectiveModule} (bound : index < modules.length)
    (folds : FoldsTo (ofRoster roster).describe (ofRoster roster).successors index effect) :
    FoldsTo Descriptor.ofContribution (bases modules) (pick modules index) effect := by
  refine folds.map (pick modules) (· < modules.length) ?_ ?_ ?_ bound
  · intro node _ base edge
    rw [← size_eq listed]
    exact (consistent_ofRoster roster).target_lt edge
  · exact fun node within => (describe_eq listed within).symm
  · exact fun node within => (map_pick_successors listed within).symm

/-- Folding the graph in an order that lists bases first gives what the outermost
contributions fold to, in the order in which that order lists them. -/
theorem fold_foldsTo (single : SinglyOverridden modules) {order : List Nat}
    (basesFirst : (ofRoster roster).BasesFirst order) :
    List.Forall₂ (FoldsTo Descriptor.ofContribution (bases modules))
      ((order.filter fun index => !(ofRoster roster).isOverridden index).map (pick modules))
      ((ofRoster roster).fold order) := by
  have folded := OverrideGraph.fold_foldsTo (consistent_ofRoster roster)
    ((singlyOverridden_iff listed).mpr single) basesFirst
  have bounded : ∀ index ∈ order.filter fun index => !(ofRoster roster).isOverridden index,
      index < modules.length := by
    intro index member
    rw [← size_eq listed]
    exact basesFirst.bounded index (List.mem_filter.mp member).1
  have both := (List.forall₂_and_left _ _).mpr ⟨bounded, folded⟩
  rw [List.forall₂_map_left_iff]
  exact both.imp fun index effect held => foldsTo_pick listed held.1 held.2

end Roster

/-- What a module folds to is composed as the tree below it. -/
theorem overrideTree_of_foldsTo {modules : List Contribution} {module : Contribution}
    {effect : EffectiveModule}
    (folds : FoldsTo Descriptor.ofContribution (bases modules) module effect) :
    OverrideTree modules module effect.composition := by
  refine folds.induct (motive := fun module effect =>
    OverrideTree modules module effect.composition) ?_
  intro module below _ trees
  by_cases bare : bases modules module = []
  · have none : below = [] := List.forall₂_nil_left_iff.mp (bare ▸ trees)
    rw [none]
    exact .leaf bare
  · have some : below.isEmpty = false := by
      rw [List.isEmpty_eq_false_iff]
      intro empty
      rw [empty] at trees
      exact bare (List.forall₂_nil_right_iff.mp trees)
    rw [EffectiveModule.layered, some]
    exact .layered bare (List.forall₂_map_right_iff.mpr trees)

theorem takesEffect_of_foldsTo {modules : List Contribution} {module : Contribution}
    {effect : EffectiveModule}
    (folds : FoldsTo Descriptor.ofContribution (bases modules) module effect) :
    TakesEffect modules module effect := by
  have tree := overrideTree_of_foldsTo folds
  cases folds with
  | layered folded =>
      constructor
      case name => rfl
      case provider => rfl
      case description => rfl
      case deprecated => rfl
      case composition => exact tree

end Declared

end Overlay
