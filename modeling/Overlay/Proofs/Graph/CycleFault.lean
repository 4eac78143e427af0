import Overlay.Proofs.Graph.LoadOrder
import Overlay.Proofs.Retention

/-!
# What a cycle fault says

When there is no load order, the fault names the modules that cannot be placed and
walks round one cycle among them.  Both parts are exact: the unplaced modules are those
on or below a cycle, and the path is a cycle of the graph that the first unplaced module
lies on or below.
-/

namespace Overlay.OverrideGraph

open Relation

variable {graph : OverrideGraph}

/-- How a fault describes a graph: `stuck` are the modules that it calls unresolved, and
the path walks from `first` through `rest` back to `first`. -/
structure Describes (graph : OverrideGraph) (fault : OverrideCycle) (stuck : List Nat)
    (first : Nat) (rest : List Nat) : Prop where
  unresolved_eq : fault.unresolved = stuck.map graph.name
  stuck_in_order : stuck.Pairwise (· < ·)
  mem_stuck_iff : ∀ index, index ∈ stuck ↔ graph.BelowCycle index
  path_eq : fault.path = (first :: rest ++ [first]).map graph.name
  distinct : (first :: rest).Nodup
  chain : (first :: rest ++ [first]).IsChain graph.Overrides
  first_least : ∀ other ∈ rest, first < other
  path_stuck : ∀ member ∈ first :: rest, member ∈ stuck
  /-- The first unresolved module is on the path or below it. -/
  reaches_head : ∃ head, stuck.head? = some head ∧
    ∃ member ∈ first :: rest, ReflTransGen graph.Overrides member head

/-- The path of a circle starts at its smallest member and returns there. -/
theorem cycleFault_eq {counts : List Nat} {head first : Nat} {others rest : List Nat}
    (stuck : graph.unresolved counts = head :: others)
    (turned : fromSmallest (graph.circleFrom counts (head :: others) [] head) = first :: rest) :
    graph.cycleFault counts =
      { path := (first :: rest ++ [first]).map graph.name
        unresolved := (head :: others).map graph.name } := by
  simp only [cycleFault, stuck, turned]
  rfl

/-- The fault of a graph with a cycle describes the graph. -/
theorem exists_describes (consistent : graph.Consistent) (cyclic : graph.Cyclic) :
    ∃ first rest, graph.Describes (graph.cycleFault graph.finishedSweep.counts)
      (graph.unresolved graph.finishedSweep.counts) first rest := by
  rcases cyclic with ⟨index, around⟩
  have member := (mem_unresolved_iff_belowCycle consistent).mpr ⟨index, around, .refl⟩
  cases stuck : graph.unresolved graph.finishedSweep.counts with
  | nil => exact (List.not_mem_nil (stuck ▸ member)).elim
  | cons head others =>
      have headMember : head ∈ graph.unresolved graph.finishedSweep.counts :=
        stuck ▸ List.mem_cons_self
      rcases exists_circle consistent headMember with ⟨isCircle, reach⟩
      rw [stuck] at isCircle reach
      rcases fromSmallest_eq isCircle.nonempty isCircle.distinct with
        ⟨first, rest, turned, rotated, least⟩
      have turnedCircle := isCircle.of_isRotated rotated
      have fault := cycleFault_eq stuck turned
      refine ⟨first, rest, ?_⟩
      constructor
      case unresolved_eq => rw [fault]
      case stuck_in_order => exact stuck ▸ List.pairwise_lt_range.filter _
      case mem_stuck_iff =>
        intro other
        rw [← stuck]
        exact mem_unresolved_iff_belowCycle consistent
      case path_eq => rw [fault]
      case distinct => exact turnedCircle.distinct
      case chain => exact Cycle.chain_coe_cons _ _ _ |>.mp turnedCircle.closed
      case first_least => exact least
      case path_stuck =>
        intro other onPath
        exact (reach other (rotated.mem_iff.mpr onPath)).1
      case reaches_head =>
        have onCircle := rotated.mem_iff.mpr (List.mem_cons_self (a := first) (l := rest))
        exact ⟨head, rfl, first, List.mem_cons_self, (reach first onCircle).2⟩

/-- On a graph with a cycle there is no load order.  The fault names exactly the modules
on or below a cycle, shows a cycle among them, and the search for that cycle finds a next
module at every module it can come to. -/
theorem loadOrder_of_cyclic (roster : Roster) (cyclic : (build roster).value.Cyclic) :
    let graph := (build roster).value
    ∃ fault stuck first rest,
      graph.loadOrder.value = .error fault ∧
      graph.Describes fault stuck first rest ∧
      ∀ index ∈ stuck, ∃ overrider ∈ stuck,
        graph.nextOverrider? graph.finishedSweep.counts index = some overrider := by
  intro graph
  have consistent : graph.Consistent := consistent_ofRoster roster
  rcases exists_describes consistent cyclic with ⟨first, rest, describes⟩
  refine ⟨_, _, first, rest, ?_, describes, finishedSweep_alwaysAdvances consistent⟩
  rw [value_loadOrder, orderOrCycle_of_cyclic consistent cyclic]

/-- Two cycles, one of them a module that overrides itself; modules below a cycle, and
one that overrides into a cycle from outside. -/
theorem loadOrder_of_tangled_cycles :
    let roster := (Roster.ofContributions [
      .plain "outside" ["first"], .plain "below" [], .plain "second" ["first", "below"],
      .plain "first" ["second"], .plain "self" ["self", "below"]]).value
    let graph := (build roster).value
    graph.Cyclic ∧ ∃ fault stuck first rest,
      graph.loadOrder.value = .error fault ∧
      graph.Describes fault stuck first rest ∧
      ∀ index ∈ stuck, ∃ overrider ∈ stuck,
        graph.nextOverrider? graph.finishedSweep.counts index = some overrider := by
  intro roster graph
  have cyclic : graph.Cyclic := by
    have around : graph.Overrides 4 4 := by
      unfold Overrides
      decide
    exact ⟨4, .single around⟩
  exact ⟨cyclic, loadOrder_of_cyclic roster cyclic⟩

end Overlay.OverrideGraph
