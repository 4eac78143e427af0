import Overlay.Proofs.Assembly
import Overlay.Proofs.OrderedMap

/-!
# Bindings

However the effective modules of an assembly are nested, what they bind is what the
retained modules bind one after the other in load order.  So the last module that binds a
key settles its value, and since overridden modules load first, a module never settles a
key that one of its overriders binds as well.
-/

namespace Overlay

open Relation

namespace ModuleUnit

/-- Whether the unit binds the key. -/
def Binds (unit : ModuleUnit) (key : String) : Prop := key ∈ unit.bindings.map Prod.fst

instance (unit : ModuleUnit) (key : String) : Decidable (unit.Binds key) :=
  inferInstanceAs (Decidable (key ∈ unit.bindings.map Prod.fst))

/-- The value that the unit binds to the key last. -/
def lastBound? (unit : ModuleUnit) (key : String) : Option Value :=
  OrderedMap.find? key unit.bindings.reverse

theorem lastBound?_eq_none_iff {unit : ModuleUnit} {key : String} :
    unit.lastBound? key = none ↔ ¬ unit.Binds key := by
  rw [lastBound?, OrderedMap.find?_eq_none_iff, List.map_reverse, List.mem_reverse, Binds]

end ModuleUnit

/-- What modules bind one after the other, starting with nothing. -/
def configuredInOrder (loaded : List Contribution) : Binder :=
  loaded.foldl (fun bound module => module.unit.configure bound) OrderedMap.empty

/-- The module is the last on the list to bind the key. -/
def Settles (loaded : List Contribution) (key : String) (module : Contribution) : Prop :=
  ∃ earlier later, loaded = earlier ++ module :: later ∧ module.unit.Binds key ∧
    ∀ other ∈ later, ¬ other.unit.Binds key

section Order

variable {loaded : List Contribution} {key : String} {module : Contribution}

theorem configuredInOrder_eq_ofList (loaded : List Contribution) :
    configuredInOrder loaded =
      OrderedMap.ofList (loaded.flatMap fun module => module.unit.bindings) := by
  rw [OrderedMap.ofList, OrderedMap.extend, List.foldl_flatMap]
  rfl

theorem bound_keys (loaded : List Contribution) :
    ((loaded.flatMap fun module => module.unit.bindings).map Prod.fst) =
      loaded.flatMap fun module => module.unit.bindings.map Prod.fst :=
  List.map_flatMap

/-- A key that some module on the list binds is settled by one. -/
theorem exists_settles (member : module ∈ loaded) (binds : module.unit.Binds key) :
    ∃ last, Settles loaded key last := by
  cases found : loaded.reverse.find? fun other => other.unit.Binds key with
  | none =>
      have silent := List.find?_eq_none.mp found module (List.mem_reverse.mpr member)
      exact (silent (decide_eq_true binds)).elim
  | some last =>
      rcases List.find?_eq_some_iff_append.mp found with ⟨lastBinds, later, earlier, split, silent⟩
      refine ⟨last, earlier.reverse, later.reverse, ?_, of_decide_eq_true lastBinds, ?_⟩
      · rw [← List.reverse_reverse loaded, split]
        simp only [List.reverse_append, List.reverse_cons, List.append_assoc,
          List.singleton_append]
      · intro other member
        simpa using silent other (List.mem_reverse.mp member)

/-- Two elements of a list are at one place, or one of them stands behind the other. -/
theorem same_or_behind {α : Type} {first second : α} {earlier later before after : List α}
    (split : earlier ++ first :: later = before ++ second :: after) :
    first = second ∨ second ∈ later ∨ first ∈ after := by
  rcases List.append_eq_append_iff.mp split with ⟨between, -, parts⟩ | ⟨between, -, parts⟩
  · rcases List.cons_eq_append_iff.mp parts with ⟨-, same⟩ | ⟨rest, -, further⟩
    · exact .inl (List.cons.inj same).1.symm
    · exact .inr (.inl (further ▸ List.mem_append_right rest List.mem_cons_self))
  · rcases List.cons_eq_append_iff.mp parts with ⟨-, same⟩ | ⟨rest, -, further⟩
    · exact .inl (List.cons.inj same).1
    · exact .inr (.inr (further ▸ List.mem_append_right rest List.mem_cons_self))

/-- A key is settled by one module at most. -/
theorem Settles.unique {other : Contribution} (first : Settles loaded key module)
    (second : Settles loaded key other) : module = other := by
  rcases first with ⟨earlier, later, split, binds, silent⟩
  rcases second with ⟨before, after, otherSplit, otherBinds, otherSilent⟩
  rcases same_or_behind (split.symm.trans otherSplit) with same | behind | behind
  · exact same
  · exact (silent other behind otherBinds).elim
  · exact (otherSilent module behind binds).elim

/-- The module that settles a key gives it the value that it binds last. -/
theorem get?_of_settles (settles : Settles loaded key module) :
    (configuredInOrder loaded).get? key = module.unit.lastBound? key := by
  rcases settles with ⟨earlier, later, rfl, binds, silent⟩
  have unbound : OrderedMap.find? key
      (later.flatMap fun other => other.unit.bindings).reverse = none := by
    rw [OrderedMap.find?_eq_none_iff, List.map_reverse, List.mem_reverse, bound_keys,
      List.mem_flatMap]
    intro bound
    rcases bound with ⟨other, member, otherBinds⟩
    exact silent other member otherBinds
  rw [configuredInOrder_eq_ofList, OrderedMap.get?_ofList, List.flatMap_append, List.flatMap_cons,
    List.reverse_append, List.reverse_append, OrderedMap.find?_append, OrderedMap.find?_append,
    unbound, Option.none_or]
  cases found : module.unit.lastBound? key with
  | none => exact (ModuleUnit.lastBound?_eq_none_iff.mp found binds).elim
  | some value =>
      rw [ModuleUnit.lastBound?] at found
      rw [found, Option.some_or]

/-- A key has a value exactly if a module settles it with this value. -/
theorem get?_configuredInOrder_eq_some_iff {value : Value} :
    (configuredInOrder loaded).get? key = some value ↔
      ∃ module, Settles loaded key module ∧ module.unit.lastBound? key = some value := by
  constructor
  · intro found
    have bound : key ∈ loaded.flatMap fun module => module.unit.bindings.map Prod.fst := by
      rw [configuredInOrder_eq_ofList, OrderedMap.get?_ofList] at found
      by_contra unbound
      have absent : key ∉
          (loaded.flatMap fun module => module.unit.bindings).reverse.map Prod.fst := by
        rwa [List.map_reverse, List.mem_reverse, bound_keys]
      rw [OrderedMap.find?_eq_none_iff.mpr absent] at found
      cases found
    rcases List.mem_flatMap.mp bound with ⟨module, member, binds⟩
    rcases exists_settles member binds with ⟨last, settles⟩
    exact ⟨last, settles, (get?_of_settles settles).symm.trans found⟩
  · intro settled
    rcases settled with ⟨module, settles, last⟩
    exact (get?_of_settles settles).trans last

end Order

/-! ## The retained modules in load order -/

open OverrideGraph Declared

/-- What stands behind an element, and is listed, comes after it. -/
theorem mem_of_idxOf_lt {front rest : List Nat} {first second : Nat} (fresh : first ∉ front)
    (listed : second ∈ front ++ first :: rest)
    (before : (front ++ first :: rest).idxOf first < (front ++ first :: rest).idxOf second) :
    second ∈ rest := by
  rw [List.idxOf_append_of_notMem fresh, List.idxOf_cons_self] at before
  rcases List.mem_append.mp listed with earlier | here
  · rw [List.idxOf_append_of_mem earlier] at before
    have within := List.idxOf_lt_length_of_mem earlier
    omega
  · rcases List.mem_cons.mp here with same | later
    · rw [same, List.idxOf_append_of_notMem fresh, List.idxOf_cons_self] at before
      exact (Nat.lt_irrefl _ before).elim
    · exact later

section LoadOrder

variable {contributions : List Contribution} {order : List Nat}
  (loadOrder : (resolutionGraph contributions).IsLoadOrder order)
include loadOrder

theorem lt_length_of_loadOrder {index : Nat} (member : index ∈ order) :
    index < (retained contributions).length := by
  rw [← size_eq (Roster.elements_ofContributions contributions)]
  exact List.mem_range.mp (loadOrder.perm.mem_iff.mp member)

/-- Loading in order loads every retained module once. -/
theorem map_pick_perm : (order.map (pick (retained contributions))).Perm
    (retained contributions) := by
  have reordered := loadOrder.perm.map (pick (retained contributions))
  rwa [resolutionGraph, size_eq (Roster.elements_ofContributions contributions),
    map_pick_range] at reordered

/-- Whoever overrides a module, directly or through others, comes after it. -/
theorem mem_later_of_overrides {overrider target : Contribution}
    (path : TransGen (Declared.Overrides (retained contributions)) overrider target)
    {earlier later : List Contribution}
    (split : order.map (pick (retained contributions)) = earlier ++ target :: later) :
    overrider ∈ later := by
  have listed := Roster.elements_ofContributions contributions
  have distinct := keys_nodup listed
  have overriderMember : overrider ∈ retained contributions := by
    rcases TransGen.head'_iff.mp path with ⟨_, edge, _⟩
    exact edge.1
  have places : TransGen (resolutionGraph contributions).Overrides
      (place (retained contributions) overrider) (place (retained contributions) target) :=
    path.lift (place (retained contributions)) fun _ _ => overrides_place listed
  have before := loadOrder.idxOf_lt_of_transGen places
  rcases List.map_eq_append_iff.mp split with ⟨front, back, rfl, -, ofBack⟩
  rcases List.map_eq_cons_iff.mp ofBack with ⟨index, rest, rfl, picked, ofRest⟩
  have placed : place (retained contributions) target = index := by
    rw [← picked]
    exact place_pick distinct (lt_length_of_loadOrder loadOrder (by simp))
  have distinctOrder := loadOrder.perm.nodup_iff.mpr List.nodup_range
  have fresh : index ∉ front := fun earlier =>
    List.disjoint_of_nodup_append distinctOrder earlier List.mem_cons_self
  have overriderListed : place (retained contributions) overrider ∈ front ++ index :: rest := by
    rw [loadOrder.perm.mem_iff, List.mem_range]
    rcases TransGen.head'_iff.mp places with ⟨_, edge, _⟩
    exact (resolutionGraph_consistent contributions).source_lt edge
  rw [placed] at before
  have later := mem_of_idxOf_lt fresh overriderListed before
  rw [← ofRest, ← pick_place distinct overriderMember]
  exact List.mem_map_of_mem later

end LoadOrder

/-- What the bindings of an assembly are, when `modules` are its retained modules and
`loaded` lists them in load order. -/
structure BoundInOrder (modules loaded : List Contribution) (binder : Binder) : Prop where
  loads_each : loaded.Perm modules
  flat : binder = configuredInOrder loaded
  keys : binder.keys = firsts id (loaded.flatMap fun module => module.unit.bindings.map Prod.fst)
  /-- A key that some module binds is settled by exactly one. -/
  settled_once : ∀ key, ∀ module ∈ loaded, module.unit.Binds key →
    ∃! last, Settles loaded key last
  get?_eq_some_iff : ∀ key value, binder.get? key = some value ↔
    ∃ module, Settles loaded key module ∧ module.unit.lastBound? key = some value
  /-- A module keeps the keys that no later module binds. -/
  kept : ∀ key module, Settles loaded key module →
    binder.get? key = module.unit.lastBound? key
  /-- A module loses the keys that one of its overriders binds too. -/
  lost : ∀ overrider target, TransGen (Declared.Overrides modules) overrider target →
    ∀ key, overrider.unit.Binds key → ¬ Settles loaded key target

/-- The layers of the effective modules, read through, are the retained modules in load
order. -/
theorem layers_resolved {contributions : List Contribution} {effective : List EffectiveModule}
    (resolved : (resolve contributions).value = .ok effective) :
    ∃ order, (resolutionGraph contributions).loadOrder.value = .ok order ∧
      (resolutionGraph contributions).IsLoadOrder order ∧
      (effective.flatMap fun effect => effect.composition.layers) =
        (order.map (pick (retained contributions))).map fun module =>
          (Descriptor.ofContribution module).layer := by
  rcases resolve_eq_ok_iff.mp resolved with ⟨single, acyclic, rfl⟩
  have consistent := resolutionGraph_consistent contributions
  have loadOrder := isLoadOrder_taken consistent acyclic
  refine ⟨_, ?_, loadOrder, ?_⟩
  · rw [value_loadOrder, orderOrCycle_of_not_cyclic consistent acyclic]
  · rw [layers_fold_taken consistent single acyclic, List.map_map]
    apply List.map_congr_left
    intro index member
    exact congrArg Descriptor.layer (describe_eq (Roster.elements_ofContributions contributions)
      (lt_length_of_loadOrder loadOrder member))

/-- An assembly that resolves binds what its retained modules bind in load order: the last
of them that binds a key settles its value, and this is never a module of which an
overrider binds the key. -/
theorem bindings_boundInOrder (assembly : Assembly) (files : FileSystem)
    {effective : List EffectiveModule}
    (resolved : (assembly.resolved files).value = .ok effective) :
    ∃ contributions order binder,
      (assembly.collected files).value = .ok contributions ∧
      (resolutionGraph contributions).loadOrder.value = .ok order ∧
      (assembly.bindings files).value = .ok binder ∧
      BoundInOrder (retained contributions) (order.map (pick (retained contributions))) binder := by
  rcases Assembly.resolved_eq_ok_iff.mp resolved with ⟨contributions, collected, ofContributions⟩
  rcases layers_resolved ofContributions with ⟨order, ordered, loadOrder, layers⟩
  have bound : Assembly.configureAll effective =
      configuredInOrder (order.map (pick (retained contributions))) := by
    rw [Assembly.configureAll_eq_foldl, layers, List.foldl_map]
    rfl
  refine ⟨contributions, order, configuredInOrder (order.map (pick (retained contributions))),
    collected, ordered, ?_, ?_⟩
  · rw [Assembly.value_bindings, resolved]
    exact congrArg Except.ok bound
  constructor
  case loads_each => exact map_pick_perm loadOrder
  case flat => rfl
  case keys => rw [configuredInOrder_eq_ofList, OrderedMap.keys_ofList, bound_keys]
  case settled_once =>
    intro key module member binds
    rcases exists_settles member binds with ⟨last, settles⟩
    exact ⟨last, settles, fun other alsoSettles => alsoSettles.unique settles⟩
  case get?_eq_some_iff => exact fun key value => get?_configuredInOrder_eq_some_iff
  case kept => exact fun key module => get?_of_settles
  case lost =>
    intro overrider target path key binds settles
    rcases settles with ⟨earlier, later, split, _, silent⟩
    exact silent overrider (mem_later_of_overrides loadOrder path split) binds

/-- A chain of three modules beside one that stands alone, all of which bind one key. -/
theorem bindings_of_chain :
    let binding (module : Contribution) (bindings : List (String × Value)) : Contribution :=
      { module with unit := ⟨bindings, false⟩ }
    let assembly := [
        binding (.plain "upper" ["middle"]) [("level", .text "trace"), ("format", .text "json")],
        binding (.plain "lower" []) [("level", .text "info"), ("target", .text "stdout")],
        binding (.plain "alone" []) [("level", .text "warn")],
        binding (.plain "middle" ["lower"]) [("target", .null), ("target", .text "file")]].foldl
      Assembly.contribute .empty
    ∃ effective, (assembly.resolved default).value = .ok effective ∧
      ∃ contributions order binder,
        (assembly.collected default).value = .ok contributions ∧
        (resolutionGraph contributions).loadOrder.value = .ok order ∧
        (assembly.bindings default).value = .ok binder ∧
        BoundInOrder (retained contributions) (order.map (pick (retained contributions)))
          binder := by
  intro binding assembly
  have resolved : ∃ effective, (assembly.resolved default).value = .ok effective := by
    have collected : (assembly.collected default).value =
        .ok (collect assembly.collector.explicit.contributions [] []) := rfl
    generalize contributed : collect assembly.collector.explicit.contributions [] [] =
      contributions at collected
    have consistent := resolutionGraph_consistent contributions
    refine ⟨_, Assembly.resolved_eq_ok_iff.mpr ⟨_, collected, resolve_eq_ok_iff.mpr ⟨?_, ?_, rfl⟩⟩⟩
    · rw [← doubleOverride?_eq_none_iff consistent, ← contributed]
      decide
    · subst contributed
      exact consistent.not_cyclic_of_rank (fun index => [2, 0, 0, 1][index]?.getD 0) (by decide)
  rcases resolved with ⟨effective, resolved⟩
  exact ⟨effective, resolved, bindings_boundInOrder assembly default resolved⟩

end Overlay
