import Overlay.Graph.SingleOverride
import Overlay.Proofs.Graph.Edges
import Overlay.Proofs.Journal

/-!
# The check for double overrides

The check looks at every node, so it finds a fault exactly when some module has two
overriders.
-/

namespace Overlay.OverrideGraph

variable {graph : OverrideGraph}

theorem doubleOverrideAt?_eq_none_iff (consistent : graph.Consistent) {index : Nat} :
    graph.doubleOverrideAt? index = none ↔
      ∀ first second, graph.Overrides first index → graph.Overrides second index →
        first = second := by
  have distinct := consistent.incoming_nodup index
  simp only [← consistent.mem_incoming, doubleOverrideAt?]
  generalize graph.incoming index = incoming at distinct ⊢
  cases incoming with
  | nil => simp
  | cons overrider others =>
      cases others with
      | nil =>
          simp only [List.mem_singleton, true_iff]
          intro first second firstOnly secondOnly
          rw [firstOnly, secondOnly]
      | cons other rest =>
          simp only [reduceCtorEq, false_iff]
          intro single
          have same := single overrider other List.mem_cons_self
            (List.mem_cons_of_mem _ List.mem_cons_self)
          rw [same, List.nodup_cons] at distinct
          exact distinct.1 List.mem_cons_self

theorem doubleOverride?_eq_none_iff (consistent : graph.Consistent) :
    graph.doubleOverride? = none ↔ graph.SinglyOverridden := by
  rw [doubleOverride?, List.findSome?_eq_none_iff]
  constructor
  · intro accepted first second target firstEdge secondEdge
    have bound := List.mem_range.mpr (consistent.target_lt firstEdge)
    exact (doubleOverrideAt?_eq_none_iff consistent).mp (accepted target bound)
      first second firstEdge secondEdge
  · intro single index _
    exact (doubleOverrideAt?_eq_none_iff consistent).mpr fun first second =>
      single first second index

theorem value_checkSingleOverride (graph : OverrideGraph) :
    graph.checkSingleOverride.value =
      match graph.doubleOverride? with
      | some fault => .error fault
      | none => .ok () := by
  rw [checkSingleOverride]
  cases graph.doubleOverride? with
  | none => rfl
  | some fault => rfl

end Overlay.OverrideGraph
