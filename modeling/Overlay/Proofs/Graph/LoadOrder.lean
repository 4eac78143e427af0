import Overlay.Proofs.Graph.Circle

/-!
# The load order exists exactly without cycles

The sweep takes every module or leaves some over; what it leaves over lies on or below
a cycle, and what it takes does not.  So the order is complete exactly when there is no
cycle, and then it lists every module once, the overridden ones first.
-/

namespace Overlay.OverrideGraph

open Relation

variable {graph : OverrideGraph}

/-- The journal aside, telling the order to the log changes nothing. -/
theorem value_loadOrder (graph : OverrideGraph) :
    graph.loadOrder.value = graph.orderOrCycle := by
  rw [loadOrder]
  cases graph.orderOrCycle with
  | ok order => rfl
  | error fault => rfl

theorem taken_nodup (consistent : graph.Consistent) : graph.finishedSweep.taken.Nodup :=
  (List.nodup_append.mp (finishedSweep_invariant consistent).distinct).2.1

theorem mem_taken_iff_not_belowCycle (consistent : graph.Consistent) {index : Nat}
    (bound : index < graph.size) :
    index ∈ graph.finishedSweep.taken ↔ ¬ graph.BelowCycle index := by
  rw [← mem_unresolved_iff_belowCycle consistent, mem_unresolved_iff consistent]
  exact ⟨fun member both => both.2 member,
    fun kept => by_contra fun fresh => kept ⟨bound, fresh⟩⟩

/-- Without a cycle the sweep takes every module once. -/
theorem taken_perm (consistent : graph.Consistent) (acyclic : ¬ graph.Cyclic) :
    graph.finishedSweep.taken.Perm (List.range graph.size) := by
  rw [List.perm_ext_iff_of_nodup (taken_nodup consistent) List.nodup_range]
  intro index
  rw [List.mem_range]
  constructor
  · exact fun member => ((mem_taken_iff consistent).mp member).1
  · intro bound
    rw [mem_taken_iff_not_belowCycle consistent bound]
    intro below
    rcases below with ⟨top, around, _⟩
    exact acyclic ⟨top, around⟩

/-- A sweep that took as many modules as there are took them all. -/
theorem not_cyclic_of_length (consistent : graph.Consistent)
    (complete : graph.finishedSweep.taken.length = graph.size) : ¬ graph.Cyclic := by
  intro cyclic
  rcases cyclic with ⟨index, around⟩
  rcases TransGen.head'_iff.mp around with ⟨_, edge, _⟩
  have bound := consistent.source_lt edge
  have within : graph.finishedSweep.taken ⊆ List.range graph.size := fun other member =>
    List.mem_range.mpr ((mem_taken_iff consistent).mp member).1
  -- No module twice and as many as there are: by counting, every one.
  have all : graph.finishedSweep.taken.Perm (List.range graph.size) := by
    refine (List.subperm_of_subset (taken_nodup consistent) within).perm_of_length_le ?_
    rw [complete, List.length_range]
  have member := all.mem_iff.mpr (List.mem_range.mpr bound)
  exact (mem_taken_iff_not_belowCycle consistent bound).mp member ⟨index, around, .refl⟩

theorem orderOrCycle_of_not_cyclic (consistent : graph.Consistent) (acyclic : ¬ graph.Cyclic) :
    graph.orderOrCycle = .ok graph.finishedSweep.taken := by
  have complete := (taken_perm consistent acyclic).length_eq
  rw [List.length_range] at complete
  exact if_pos complete

theorem orderOrCycle_of_cyclic (consistent : graph.Consistent) (cyclic : graph.Cyclic) :
    graph.orderOrCycle = .error (graph.cycleFault graph.finishedSweep.counts) :=
  if_neg fun complete => not_cyclic_of_length consistent complete cyclic

/-- What an order that loads overridden modules first has to satisfy. -/
structure IsLoadOrder (graph : OverrideGraph) (order : List Nat) : Prop where
  perm : order.Perm (List.range graph.size)
  overridden_first : ∀ source target, graph.Overrides source target →
    order.idxOf target < order.idxOf source
  outermost_in_order :
    order.filter (fun index => !graph.isOverridden index) = graph.outermost

theorem IsLoadOrder.idxOf_lt_of_transGen {order : List Nat} (loadOrder : graph.IsLoadOrder order)
    {source target : Nat} (path : TransGen graph.Overrides source target) :
    order.idxOf target < order.idxOf source := by
  have later : TransGen (fun left right => right < left) (order.idxOf source)
      (order.idxOf target) := path.lift order.idxOf loadOrder.overridden_first
  rwa [transGen_eq_self] at later

theorem isLoadOrder_taken (consistent : graph.Consistent) (acyclic : ¬ graph.Cyclic) :
    graph.IsLoadOrder graph.finishedSweep.taken := by
  have held := finishedSweep_invariant consistent
  have perm := taken_perm consistent acyclic
  constructor
  case perm => exact perm
  case overridden_first =>
    intro source target edge
    have member := perm.mem_iff.mpr (List.mem_range.mpr (consistent.target_lt edge))
    exact (held.placed.idxOf_lt consistent (taken_nodup consistent) edge member).2
  case outermost_in_order =>
    have order := held.outermost
    have empty : graph.finishedSweep.waiting = [] :=
      (runSweep_invariant consistent _ (initialSweep_invariant graph)).2
    rwa [empty] at order

/-- A load order exists exactly when no module overrides itself, directly or through
others; it is a permutation of the modules in which each overridden module stands before
its overriders and the others keep the order of the roster. -/
theorem loadOrder_complete_and_sound (roster : Roster) :
    let graph := (build roster).value
    ((∃ order, graph.loadOrder.value = .ok order) ↔ ¬ graph.Cyclic) ∧
      ∀ order, graph.loadOrder.value = .ok order →
        order.Perm (List.range graph.size) ∧
        (∀ source target, graph.Overrides source target →
          order.idxOf target < order.idxOf source) ∧
        order.filter (fun index => !graph.isOverridden index) =
          (List.range graph.size).filter fun index => !graph.isOverridden index := by
  intro graph
  have consistent : graph.Consistent := consistent_ofRoster roster
  rw [value_loadOrder]
  by_cases cyclic : graph.Cyclic
  · rw [orderOrCycle_of_cyclic consistent cyclic]
    constructor
    · constructor
      · intro accepted
        rcases accepted with ⟨order, found⟩
        cases found
      · exact fun acyclic => (acyclic cyclic).elim
    · intro order found
      cases found
  · rw [orderOrCycle_of_not_cyclic consistent cyclic]
    constructor
    · constructor
      · exact fun _ => cyclic
      · exact fun _ => ⟨graph.finishedSweep.taken, rfl⟩
    · intro order found
      have isLoadOrder := isLoadOrder_taken consistent cyclic
      rw [Except.ok.inj found] at isLoadOrder
      exact ⟨isLoadOrder.perm, isLoadOrder.overridden_first, isLoadOrder.outermost_in_order⟩

end Overlay.OverrideGraph
