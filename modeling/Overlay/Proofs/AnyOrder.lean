import Overlay.Proofs.Layers

/-!
# Folding any list of modules

The load order is one of many orders that list bases first.  Where no module has two
overriders, it does not matter which of them is folded: what an outermost module takes
effect as is a function of the module, and the order only says in which sequence they come.

Folding itself takes any list, also one that repeats modules or lists them before their
bases.  What it does then can be read off the list.  At each place a module is folded; a
module that others override waits from there on, until an overrider takes it or the same
module is folded again.  `basesAt` says which places a place takes.  The effective modules
are the trees of places so described, and no place ends up in two of them.
-/

namespace Overlay

open Relation

theorem forall₂_filterMap {α β γ : Type} {related : β → γ → Prop} {left : α → Option β}
    {right : α → Option γ} {elements : List α}
    (each : ∀ element ∈ elements, Option.Rel related (left element) (right element)) :
    List.Forall₂ related (elements.filterMap left) (elements.filterMap right) := by
  induction elements with
  | nil => exact .nil
  | cons element rest ih =>
      have further := ih fun other member => each other (List.mem_cons_of_mem _ member)
      have head := each element List.mem_cons_self
      rw [List.filterMap_cons, List.filterMap_cons]
      generalize left element = first at head ⊢
      generalize right element = second at head ⊢
      cases head with
      | some related => exact .cons related further
      | none => exact further

theorem filterMap_sublist {α : Type} {pick : α → Option α}
    (own : ∀ element found, pick element = some found → found = element) (elements : List α) :
    (elements.filterMap pick).Sublist elements := by
  induction elements with
  | nil => exact .slnil
  | cons element rest ih =>
      rw [List.filterMap_cons]
      cases picked : pick element with
      | none => exact ih.cons element
      | some found =>
          rw [own element found picked]
          exact ih.cons_cons element

namespace OverrideGraph

variable {graph : OverrideGraph}

/-! ## Orders that list bases first -/

/-- Where no module has two overriders, every order that lists each module once and
overridden modules first folds to the same effective modules, in the sequence in which it
lists the outermost ones. -/
theorem fold_of_overridden_first (roster : Roster)
    (single : (build roster).value.SinglyOverridden) :
    let graph := (build roster).value
    ∃ effect : Nat → EffectiveModule, ∀ order : List Nat, order.Perm (List.range graph.size) →
      (∀ source target, graph.Overrides source target →
        order.idxOf target < order.idxOf source) →
      graph.fold order = (order.filter fun index => !graph.isOverridden index).map effect ∧
      ∀ index ∈ graph.outermost,
        FoldsTo graph.describe graph.successors index (effect index) := by
  intro graph
  have consistent : graph.Consistent := consistent_ofRoster roster
  rcases FoldsTo.exists_effect graph.describe graph.successors with ⟨effect, describes⟩
  refine ⟨effect, fun order perm first => ?_⟩
  have folded := fold_foldsTo consistent single (basesFirst_of_perm perm first)
  have listed := describes _ _ folded
  refine ⟨listed, fun index member => ?_⟩
  rw [listed, List.forall₂_map_right_iff, List.forall₂_same] at folded
  exact folded index ((perm.filter fun index => !graph.isOverridden index).mem_iff.mpr member)

/-- Two trees, one of them of three generations, in two orders that mix them. -/
theorem fold_of_mixed_trees :
    let roster := (Roster.ofContributions [
      .plain "upper" ["left", "right"], .plain "single" [], .plain "left" ["lower"],
      .plain "right" [], .plain "lower" []]).value
    let graph := (build roster).value
    graph.SinglyOverridden ∧ ∃ effect : Nat → EffectiveModule,
      graph.fold [4, 3, 2, 1, 0] = [effect 1, effect 0] ∧
      graph.fold [3, 4, 2, 0, 1] = [effect 0, effect 1] := by
  intro roster graph
  have consistent : graph.Consistent := consistent_ofRoster roster
  have single : graph.SinglyOverridden :=
    (doubleOverride?_eq_none_iff consistent).mp (by decide)
  have listed : ∀ order ∈ [[4, 3, 2, 1, 0], [3, 4, 2, 0, 1]],
      order.Perm (List.range graph.size) := by decide
  have first : ∀ order ∈ [[4, 3, 2, 1, 0], [3, 4, 2, 0, 1]], ∀ source < graph.size,
      ∀ target ∈ graph.successors source, order.idxOf target < order.idxOf source := by decide
  rcases fold_of_overridden_first roster single with ⟨effect, folds⟩
  have each : ∀ order ∈ [[4, 3, 2, 1, 0], [3, 4, 2, 0, 1]],
      graph.fold order = (order.filter fun index => !graph.isOverridden index).map effect :=
    fun order member => (folds order (listed order member) fun source target edge =>
      first order member source (consistent.source_lt edge) target edge).1
  exact ⟨single, effect, each _ (by decide), each _ (by decide)⟩

/-! ## Places -/

/-- The module at a place of a list. -/
def moduleAt (order : List Nat) (place : Nat) : Nat := order[place]?.getD 0

/-- The place at which a module waits, in a list given from the end: the last place of the
module, unless an overrider comes after it. -/
def waitingIn (graph : OverrideGraph) (target : Nat) : List Nat → Option Nat
  | [] => none
  | last :: earlier =>
      if last = target then some earlier.length
      else if target ∈ graph.successors last then none
      else graph.waitingIn target earlier

/-- The places that a place takes, in the order in which its module declares the modules
that wait there. -/
def basesAt (graph : OverrideGraph) (order : List Nat) (place : Nat) : List Nat :=
  if place < order.length then
    (graph.successors (moduleAt order place)).filterMap fun target =>
      graph.waitingIn target (order.take place).reverse
  else []

/-- What a place folds to: its module, on top of what the places that it takes fold to. -/
abbrev FoldsAt (graph : OverrideGraph) (order : List Nat) : Nat → EffectiveModule → Prop :=
  FoldsTo (fun place => graph.describe (moduleAt order place)) (graph.basesAt order)

/-- The places of modules that none overrides. -/
def outermostPlaces (graph : OverrideGraph) (order : List Nat) : List Nat :=
  (List.range order.length).filter fun place => !graph.isOverridden (moduleAt order place)

theorem moduleAt_append_left {done : List Nat} {place : Nat} (bound : place < done.length)
    (rest : List Nat) : moduleAt (done ++ rest) place = moduleAt done place := by
  rw [moduleAt, moduleAt, List.getElem?_append_left bound]

theorem moduleAt_length (done : List Nat) (index : Nat) (rest : List Nat) :
    moduleAt (done ++ index :: rest) done.length = index := by
  rw [moduleAt, List.getElem?_append_right (Nat.le_refl _), Nat.sub_self]
  rfl

theorem map_moduleAt_range (order : List Nat) :
    (List.range order.length).map (moduleAt order) = order := by
  apply List.ext_getElem
  · rw [List.length_map, List.length_range]
  · intro place _ bound
    rw [List.getElem_map, List.getElem_range, moduleAt, List.getElem?_eq_getElem bound,
      Option.getD_some]

theorem map_moduleAt_outermostPlaces (graph : OverrideGraph) (order : List Nat) :
    (graph.outermostPlaces order).map (moduleAt order) =
      order.filter fun index => !graph.isOverridden index := by
  conv_rhs => rw [← map_moduleAt_range order, List.filter_map]
  rfl

theorem waitingIn_concat (target last : Nat) (done : List Nat) :
    graph.waitingIn target (done ++ [last]).reverse =
      if last = target then some done.length
      else if target ∈ graph.successors last then none
      else graph.waitingIn target done.reverse := by
  rw [List.reverse_append, List.reverse_singleton, List.singleton_append, waitingIn,
    List.length_reverse]

/-- The module at a place waits for `target`'s next overrider once the list has been folded:
no later place folds the module again or an overrider of it. -/
def WaitsAt (graph : OverrideGraph) (done : List Nat) (target place : Nat) : Prop :=
  place < done.length ∧ moduleAt done place = target ∧
    ∀ later < done.length, place < later →
      moduleAt done later ≠ target ∧ ¬ graph.Overrides (moduleAt done later) target

/-- Folding another module leaves those waiting that it does not override. -/
theorem waitsAt_concat {target place last : Nat} {done : List Nat} (different : last ≠ target) :
    graph.WaitsAt (done ++ [last]) target place ↔
      ¬ graph.Overrides last target ∧ graph.WaitsAt done target place := by
  have atLast : moduleAt (done ++ [last]) done.length = last := moduleAt_length done last []
  have before : ∀ earlier < done.length,
      moduleAt (done ++ [last]) earlier = moduleAt done earlier :=
    fun earlier bound => moduleAt_append_left bound [last]
  rw [WaitsAt, WaitsAt, List.length_append, List.length_singleton]
  constructor
  · rintro ⟨bound, here, none⟩
    have earlier : place < done.length := by
      refine Nat.lt_of_le_of_ne (Nat.le_of_lt_succ bound) ?_
      rintro rfl
      exact different (atLast.symm.trans here)
    refine ⟨?_, earlier, (before place earlier).symm.trans here, ?_⟩
    · rw [← atLast]
      exact (none done.length (Nat.lt_succ_self _) earlier).2
    · intro later laterBound after
      rw [← before later laterBound]
      exact none later (Nat.lt_succ_of_lt laterBound) after
  · rintro ⟨untouched, bound, here, none⟩
    refine ⟨Nat.lt_succ_of_lt bound, (before place bound).trans here, ?_⟩
    intro later laterBound after
    rcases Nat.lt_succ_iff_lt_or_eq.mp laterBound with within | rfl
    · rw [before later within]
      exact none later within after
    · rw [atLast]
      exact ⟨different, untouched⟩

theorem waitingIn_eq_some_iff {target place : Nat} {done : List Nat} :
    graph.waitingIn target done.reverse = some place ↔ graph.WaitsAt done target place := by
  induction done using List.reverseRecOn with
  | nil => exact iff_of_false (fun waits => by cases waits) fun waits => Nat.not_lt_zero _ waits.1
  | append_singleton done last ih =>
      rw [waitingIn_concat]
      by_cases same : last = target
      · have atLast : moduleAt (done ++ [last]) done.length = target :=
          (moduleAt_length done last []).trans same
        rw [if_pos same, Option.some.injEq, WaitsAt, List.length_append, List.length_singleton]
        constructor
        · rintro rfl
          exact ⟨Nat.lt_succ_self _, atLast, fun later bound after => by omega⟩
        · rintro ⟨bound, _, none⟩
          by_contra different
          exact (none done.length (Nat.lt_succ_self _) (by omega)).1 atLast
      · rw [if_neg same, waitsAt_concat same, ← ih]
        by_cases overrides : target ∈ graph.successors last
        · rw [if_pos overrides]
          exact iff_of_false (fun waits => by cases waits) fun waits => waits.1 overrides
        · rw [if_neg overrides]
          exact ⟨fun waits => ⟨overrides, waits⟩, fun waits => waits.2⟩

/-- A place takes the places of modules that its module overrides, each from where it stands
last before, and only if nothing in between took it. -/
theorem mem_basesAt_iff {order : List Nat} {place base : Nat} :
    base ∈ graph.basesAt order place ↔
      base < place ∧ place < order.length ∧
        graph.Overrides (moduleAt order place) (moduleAt order base) ∧
        ∀ between, base < between → between < place →
          moduleAt order between ≠ moduleAt order base ∧
            ¬ graph.Overrides (moduleAt order between) (moduleAt order base) := by
  rw [basesAt]
  by_cases bound : place < order.length
  case neg =>
    rw [if_neg bound]
    exact iff_of_false (List.not_mem_nil) fun takes => bound takes.2.1
  have taken : (order.take place).length = place := by
    rw [List.length_take, Nat.min_eq_left (Nat.le_of_lt bound)]
  have before : ∀ earlier < place,
      moduleAt (order.take place) earlier = moduleAt order earlier := by
    intro earlier within
    rw [moduleAt, moduleAt, List.getElem?_take_of_lt within]
  simp only [if_pos bound, List.mem_filterMap, waitingIn_eq_some_iff, WaitsAt, taken]
  constructor
  · rintro ⟨target, overrides, earlier, here, none⟩
    rw [before base earlier] at here
    subst here
    refine ⟨earlier, bound, overrides, fun between after within => ?_⟩
    rw [← before between within]
    exact none between within after
  · rintro ⟨earlier, _, overrides, none⟩
    refine ⟨moduleAt order base, overrides, earlier, before base earlier, ?_⟩
    intro between within after
    rw [before between within]
    exact none between after within

/-- A place takes modules in the order in which its module declares them. -/
theorem map_moduleAt_basesAt_sublist (order : List Nat) (place : Nat) :
    ((graph.basesAt order place).map (moduleAt order)).Sublist
      (graph.successors (moduleAt order place)) := by
  rw [basesAt]
  by_cases bound : place < order.length
  case neg =>
    rw [if_neg bound]
    exact List.nil_sublist _
  rw [if_pos bound, List.map_filterMap]
  apply filterMap_sublist
  intro target found waits
  rcases Option.map_eq_some_iff.mp waits with ⟨base, placed, rfl⟩
  have held := waitingIn_eq_some_iff.mp placed
  rw [← held.2.1, moduleAt, moduleAt,
    List.getElem?_take_of_lt (held.1.trans_le (List.length_take_le _ _))]

theorem basesAt_isForest (consistent : graph.Consistent) (order : List Nat) :
    IsForest (graph.basesAt order) id := by
  constructor
  case single =>
    intro first second base byFirst bySecond
    have firstTakes := mem_basesAt_iff.mp byFirst
    have secondTakes := mem_basesAt_iff.mp bySecond
    -- Whoever comes first leaves nothing for the other.
    rcases Nat.lt_trichotomy first second with before | same | after
    · exact ((secondTakes.2.2.2 first firstTakes.1 before).2 firstTakes.2.2.1).elim
    · exact same
    · exact ((firstTakes.2.2.2 second secondTakes.1 after).2 secondTakes.2.2.1).elim
  case distinct =>
    intro place
    have once := (consistent.successors_nodup (moduleAt order place)).sublist
      (map_moduleAt_basesAt_sublist order place)
    exact List.Nodup.of_map _ once
  case falls => exact fun takes => (mem_basesAt_iff.mp takes).1

/-! ## What waits in the slots -/

/-- What holds after the modules in `done`, with which `order` begins, have been folded. -/
structure PlaceInvariant (graph : OverrideGraph) (order done : List Nat) (folding : Folding) :
    Prop where
  slots : folding.pending.length = graph.size
  /-- The slot of a module that others override holds what the place at which it waits
  folds to, and nothing if it does not wait. -/
  waiting : ∀ target, graph.isOverridden target = true →
    Option.Rel (graph.FoldsAt order) (graph.waitingIn target done.reverse)
      (folding.pending[target]?).join
  finished : List.Forall₂ (graph.FoldsAt order) (graph.outermostPlaces done) folding.finished

theorem outermostPlaces_concat (done : List Nat) (index : Nat) :
    graph.outermostPlaces (done ++ [index]) =
      graph.outermostPlaces done ++
        if graph.isOverridden index then [] else [done.length] := by
  have before : ∀ place ∈ List.range done.length,
      (!graph.isOverridden (moduleAt (done ++ [index]) place)) =
        !graph.isOverridden (moduleAt done place) := by
    intro place member
    rw [moduleAt_append_left (List.mem_range.mp member)]
  rw [outermostPlaces, List.length_append, List.length_singleton, List.range_succ,
    List.filter_append, List.filter_congr before, List.filter_singleton,
    moduleAt_length done index []]
  cases graph.isOverridden index <;> rfl

/-- What is withdrawn for the next place is what the places that it takes fold to. -/
theorem PlaceInvariant.bases (consistent : graph.Consistent) {order done rest : List Nat}
    {index : Nat} (split : order = done ++ index :: rest) {folding : Folding}
    (held : graph.PlaceInvariant order done folding) :
    List.Forall₂ (graph.FoldsAt order) (graph.basesAt order done.length)
      (Folding.withdraw (graph.successors index) folding.pending).1 := by
  have within : done.length < order.length := by simp [split]
  rw [basesAt, if_pos within, split, moduleAt_length, List.take_left, ← split,
    Folding.withdraw_fst (consistent.successors_nodup index)]
  apply forall₂_filterMap
  intro target overrides
  exact held.waiting target (consistent.isOverridden_iff.mpr ⟨index, overrides⟩)

/-- Folding the module at the next place keeps the invariant. -/
theorem PlaceInvariant.step (consistent : graph.Consistent) {order done rest : List Nat}
    {index : Nat} (split : order = done ++ index :: rest) (bound : index < graph.size)
    {folding : Folding} (held : graph.PlaceInvariant order done folding) :
    graph.PlaceInvariant order (done ++ [index]) (Folding.step graph folding index) := by
  have folds := FoldsTo.layered (held.bases consistent split)
  have here : moduleAt order done.length = index := by rw [split, moduleAt_length]
  rw [here] at folds
  have slots := (Folding.length_withdraw_snd (graph.successors index) folding.pending).trans
    held.slots
  -- The other slots: those of the bases are empty now, the rest are as they were.
  have elsewhere : ∀ target, index ≠ target → graph.isOverridden target = true →
      Option.Rel (graph.FoldsAt order) (graph.waitingIn target (done ++ [index]).reverse)
        ((Folding.withdraw (graph.successors index) folding.pending).2[target]?).join := by
    intro target different overridden
    rw [waitingIn_concat, if_neg different, Folding.join_withdraw_snd]
    split
    · exact .none
    · exact held.waiting target overridden
  rw [step_eq bound]
  cases overridden : graph.isOverridden index with
  | true =>
      simp only [if_true]
      constructor
      case slots => rw [List.length_set, slots]
      case waiting =>
        intro target targetOverridden
        by_cases same : index = target
        · subst same
          rw [waitingIn_concat, if_pos rfl, List.getElem?_set_self (slots ▸ bound)]
          exact .some folds
        · rw [List.getElem?_set_ne same]
          exact elsewhere target same targetOverridden
      case finished =>
        rw [outermostPlaces_concat, overridden, if_pos rfl, List.append_nil]
        exact held.finished
  | false =>
      simp only [Bool.false_eq_true, if_false]
      constructor
      case slots => exact slots
      case waiting =>
        intro target targetOverridden
        refine elsewhere target ?_ targetOverridden
        rintro rfl
        rw [overridden] at targetOverridden
        cases targetOverridden
      case finished =>
        rw [outermostPlaces_concat, overridden, if_neg Bool.false_ne_true]
        exact List.rel_append held.finished (.cons folds .nil)

/-- Folding the rest of a list keeps the invariant. -/
theorem PlaceInvariant.run (consistent : graph.Consistent) {order : List Nat}
    (valid : ∀ index ∈ order, index < graph.size) (rest : List Nat) :
    ∀ {done : List Nat} {folding : Folding}, order = done ++ rest →
      graph.PlaceInvariant order done folding →
      graph.PlaceInvariant order order (rest.foldl (Folding.step graph) folding) := by
  induction rest with
  | nil =>
      intro done folding split held
      rw [List.append_nil] at split
      rwa [← split] at held
  | cons index rest ih =>
      intro done folding split held
      have after := held.step consistent split (valid index (by simp [split]))
      rw [List.append_cons] at split
      exact ih split after

/-- Folding any list composes modules along the places that each place takes. -/
theorem fold_foldsTo_places (consistent : graph.Consistent) {order : List Nat}
    (valid : ∀ index ∈ order, index < graph.size) :
    List.Forall₂ (graph.FoldsAt order) (graph.outermostPlaces order) (graph.fold order) := by
  have initial : graph.PlaceInvariant order [] ⟨List.replicate graph.size none, []⟩ := by
    constructor
    case slots => exact List.length_replicate
    case waiting =>
      intro target _
      have empty : ((List.replicate graph.size (none : Option EffectiveModule))[target]?).join =
          none := by
        rw [List.getElem?_replicate]
        split <;> rfl
      rw [empty]
      exact .none
    case finished => exact .nil
  exact (PlaceInvariant.run consistent valid order rfl initial).finished

/-! ## Prefixes -/

theorem finished_prefix_step (graph : OverrideGraph) (folding : Folding) (index : Nat) :
    folding.finished <+: (Folding.step graph folding index).finished := by
  rw [Folding.step]
  cases graph.nodes[index]? with
  | none => exact List.prefix_rfl
  | some descriptor =>
      dsimp only
      split
      · exact List.prefix_rfl
      · exact List.prefix_append _ _

theorem finished_prefix_foldl (graph : OverrideGraph) (folding : Folding) (rest : List Nat) :
    folding.finished <+: (rest.foldl (Folding.step graph) folding).finished := by
  induction rest generalizing folding with
  | nil => exact List.prefix_rfl
  | cons index rest ih => exact (finished_prefix_step graph folding index).trans (ih _)

/-- Folding more modules keeps what has been finished. -/
theorem fold_prefix (graph : OverrideGraph) (order more : List Nat) :
    graph.fold order <+: graph.fold (order ++ more) := by
  rw [fold, fold, List.foldl_append]
  exact finished_prefix_foldl graph _ more

/-! ## Any list -/

/-- What folding a list amounts to, whatever the list is: one effective module for each place
of an outermost module, composed along the places that each place takes.  `blocks` lists for
each of them the places that became its layers. -/
structure FoldsByPlace (graph : OverrideGraph) (order : List Nat) (blocks : List (List Nat)) :
    Prop where
  effects : List.Forall₂ (graph.FoldsAt order) (graph.outermostPlaces order) (graph.fold order)
  names : (graph.fold order).map EffectiveModule.name =
    (order.filter fun index => !graph.isOverridden index).map graph.name
  /-- A base stands earlier on the list, is overridden, and is taken by the first overrider
  after it unless it is folded again before. -/
  mem_basesAt_iff : ∀ place base, base ∈ graph.basesAt order place ↔
    base < place ∧ place < order.length ∧
      graph.Overrides (moduleAt order place) (moduleAt order base) ∧
      ∀ between, base < between → between < place →
        moduleAt order between ≠ moduleAt order base ∧
          ¬ graph.Overrides (moduleAt order between) (moduleAt order base)
  as_declared : ∀ place, ((graph.basesAt order place).map (moduleAt order)).Sublist
    (graph.successors (moduleAt order place))
  traversed : List.Forall₂ (PostOrder (graph.basesAt order)) (graph.outermostPlaces order) blocks
  layers : ((graph.fold order).map fun effect => effect.composition.layers) =
    blocks.map fun block => block.map fun place => (graph.describe (moduleAt order place)).layer
  /-- No place is a layer twice, over all effective modules together. -/
  places_once : blocks.flatten.Nodup
  /-- A module is a layer at most as often as it stands on the list. -/
  count_le : ∀ index, (blocks.flatten.map (moduleAt order)).count index ≤ order.count index
  kept : ∀ more, graph.fold order <+: graph.fold (order ++ more)

/-- Whatever lies below a place on the list is a place on the list. -/
theorem lt_length_of_below {order : List Nat} {place inner : Nat} (bound : place < order.length)
    (path : ReflTransGen (fun source target => target ∈ graph.basesAt order source) place inner) :
    inner < order.length := by
  induction path with
  | refl => exact bound
  | tail _ takes within => exact (mem_basesAt_iff.mp takes).1.trans within

/-- Whoever overrides whom, and whatever list of modules is folded: each place of an outermost
module gives one effective module, every base is taken from an earlier place that its
overrider overrides, no place is used twice, and folding on takes nothing back. -/
theorem fold_foldsByPlace (roster : Roster) (order : List Nat)
    (valid : ∀ index ∈ order, index < (build roster).value.size) :
    ∃ blocks, (build roster).value.FoldsByPlace order blocks := by
  have consistent : (build roster).value.Consistent := consistent_ofRoster roster
  generalize (build roster).value = graph at valid consistent
  have folded := fold_foldsTo_places consistent valid
  rcases FoldsTo.exists_blocks (folded.imp fun _ _ => FoldsTo.traversed) with
    ⟨blocks, traversed, layers⟩
  have outermost : ∀ place ∈ graph.outermostPlaces order, place < order.length ∧
      graph.isOverridden (moduleAt order place) = false := by
    intro place member
    have listed := List.mem_filter.mp member
    exact ⟨List.mem_range.mp listed.1, by simpa using listed.2⟩
  have once : blocks.flatten.Nodup := by
    refine (basesAt_isForest consistent order).nodup_flatten
      (List.nodup_range.filter _) ?_ traversed
    intro root member place takes
    have overridden := consistent.isOverridden_iff.mpr ⟨_, (mem_basesAt_iff.mp takes).2.2.1⟩
    rw [(outermost root member).2] at overridden
    cases overridden
  have within : blocks.flatten ⊆ List.range order.length := by
    intro inner visited
    rcases List.mem_flatten.mp visited with ⟨block, member, visited⟩
    rcases exists_left_of_forall₂ traversed member with ⟨root, rootMember, below⟩
    exact List.mem_range.mpr
      (lt_length_of_below (outermost root rootMember).1 ((below.mem_iff inner).mp visited))
  refine ⟨blocks, ?_⟩
  constructor
  case effects => exact folded
  case names =>
    rw [← map_moduleAt_outermostPlaces, List.map_map]
    refine (map_eq_of_forall₂ (folded.imp ?_)).symm
    intro place effect folds
    rw [folds.name_eq, name_describe]
    rfl
  case mem_basesAt_iff => exact fun _ _ => mem_basesAt_iff
  case as_declared => exact map_moduleAt_basesAt_sublist order
  case traversed => exact traversed
  case layers => exact layers
  case places_once => exact once
  case count_le =>
    intro index
    rcases List.subperm_of_subset once within with ⟨places, perm, sublist⟩
    have counted := (sublist.map (moduleAt order)).count_le index
    rwa [(perm.map (moduleAt order)).count_eq, map_moduleAt_range] at counted
  case kept => exact fold_prefix graph order

/-- A list with repetitions, bases behind their overriders, a module that overrides itself, a
circle of two and a module with two overriders. -/
theorem fold_of_tangled_list :
    let roster := (Roster.ofContributions [
      .plain "self" ["self"], .plain "left" ["right", "shared"], .plain "right" ["left"],
      .plain "shared" [], .plain "top" ["shared", "self", "left"]]).value
    let order := [3, 0, 0, 4, 1, 3, 2, 3, 1, 4, 4]
    (∀ index ∈ order, index < (build roster).value.size) ∧
      ∃ blocks, (build roster).value.FoldsByPlace order blocks := by
  intro roster order
  have valid : ∀ index ∈ order, index < (build roster).value.size := by decide
  exact ⟨valid, fold_foldsByPlace roster order valid⟩

end OverrideGraph

end Overlay
