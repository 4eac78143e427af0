import Mathlib.Data.List.Cycle
import Overlay.Proofs.Graph.Sweep

/-!
# The circle among the modules left over

A module left over by the sweep always has an overrider that is left over too.  A walk
from overridden module to overrider therefore never has to stop, and as it visits no
module twice before it closes, it ends in a circle.  The circle is stated up to
rotation with `Cycle`, so turning it to its smallest member changes nothing about it.
-/

namespace Overlay.OverrideGraph

open Relation

variable {graph : OverrideGraph}

/-- Different modules of which each overrides the next, and the last the first. -/
structure IsCircle (graph : OverrideGraph) (circle : List Nat) : Prop where
  nonempty : circle ≠ []
  distinct : circle.Nodup
  closed : Cycle.Chain graph.Overrides (circle : Cycle Nat)

namespace IsCircle

variable {circle : List Nat}

/-- Every member of a circle overrides every member, itself included, through others. -/
theorem transGen (isCircle : graph.IsCircle circle) {first second : Nat}
    (firstMember : first ∈ circle) (secondMember : second ∈ circle) :
    TransGen graph.Overrides first second := by
  have through : Cycle.Chain (TransGen graph.Overrides) (circle : Cycle Nat) :=
    isCircle.closed.imp fun _ _ => TransGen.single
  exact Cycle.chain_iff_pairwise.mp through first firstMember second secondMember

theorem of_isRotated (isCircle : graph.IsCircle circle) {turned : List Nat}
    (rotated : circle.IsRotated turned) : graph.IsCircle turned := by
  constructor
  case nonempty =>
    intro empty
    exact isCircle.nonempty (List.isRotated_nil_iff.mp (empty ▸ rotated))
  case distinct => exact rotated.nodup_iff.mp isCircle.distinct
  case closed => exact Cycle.coe_eq_coe.mpr rotated ▸ isCircle.closed

end IsCircle

/-- Turning a circle to its smallest member: the members behind it are larger. -/
theorem fromSmallest_eq {circle : List Nat} (nonempty : circle ≠ []) (distinct : circle.Nodup) :
    ∃ first rest, fromSmallest circle = first :: rest ∧ circle.IsRotated (first :: rest) ∧
      ∀ other ∈ rest, first < other := by
  cases smallestFound : circle.min? with
  | none => exact (nonempty (List.min?_eq_none_iff.mp smallestFound)).elim
  | some smallest =>
      rcases List.min?_eq_some_iff.mp smallestFound with ⟨member, least⟩
      have bound := List.idxOf_lt_length_of_mem member
      have turned : fromSmallest circle = circle.rotate (circle.idxOf smallest) := by
        rw [List.rotate_eq_drop_append_take (Nat.le_of_lt bound), fromSmallest, smallestFound]
      have split : fromSmallest circle = smallest ::
          (circle.drop (circle.idxOf smallest + 1) ++ circle.take (circle.idxOf smallest)) := by
        simp only [fromSmallest, smallestFound]
        rw [List.drop_eq_getElem_cons bound, List.getElem_idxOf, List.cons_append]
      have rotated : circle.IsRotated (fromSmallest circle) := ⟨_, turned.symm⟩
      refine ⟨smallest, _, split, split ▸ rotated, ?_⟩
      intro other behind
      have turnedDistinct := rotated.nodup_iff.mp distinct
      rw [split, List.nodup_cons] at turnedDistinct
      have different : smallest ≠ other := fun same => turnedDistinct.1 (same ▸ behind)
      have otherMember : other ∈ circle :=
        rotated.mem_iff.mpr (split ▸ List.mem_cons_of_mem _ behind)
      exact Nat.lt_of_le_of_ne (least other otherMember) different

/-! ## The walk -/

/-- The first overrider of a module that the counts leave over. -/
def nextOverrider? (graph : OverrideGraph) (counts : List Nat) (index : Nat) : Option Nat :=
  (graph.incoming index).find? fun source => 0 < counts[source]?.getD 0

/-- A walk in progress: it has not left `all`, every module on it overrides the one
visited before, and so it can be followed back to where it began. -/
structure Walk (graph : OverrideGraph) (all : List Nat) (start : Nat) (left walked : List Nat)
    (current : Nat) : Prop where
  partition : (walked ++ left).Perm all
  chain : (current :: walked).IsChain graph.Overrides
  visited : ∀ member ∈ current :: walked,
    member ∈ all ∧ ReflTransGen graph.Overrides member start

/-- A walk that comes back to a module has gone round a circle. -/
theorem Walk.isCircle {all left walked : List Nat} {start current : Nat} (distinct : all.Nodup)
    (walk : graph.Walk all start left walked current) (again : current ∉ left) :
    graph.IsCircle (walked.take (walked.idxOf current + 1)) := by
  have currentMember := (walk.visited current List.mem_cons_self).1
  have visitedBefore : current ∈ walked :=
    (List.mem_append.mp (walk.partition.mem_iff.mpr currentMember)).resolve_right again
  have walkedDistinct : walked.Nodup :=
    (List.nodup_append.mp (walk.partition.nodup_iff.mpr distinct)).1
  have chain := walk.chain
  rcases List.append_of_mem visitedBefore with ⟨recent, older, split⟩
  have fresh : current ∉ recent := by
    rw [split] at walkedDistinct
    exact fun earlier =>
      List.disjoint_of_nodup_append walkedDistinct earlier List.mem_cons_self
  have circleEq : walked.take (walked.idxOf current + 1) = recent ++ [current] := by
    rw [split, List.idxOf_append_of_notMem fresh, List.idxOf_cons_self]
    simp [List.take_append]
  rw [circleEq]
  constructor
  case nonempty => exact List.append_ne_nil_of_right_ne_nil _ (List.cons_ne_nil _ _)
  case distinct =>
    rw [← circleEq]
    exact walkedDistinct.sublist (List.take_sublist _ _)
  case closed =>
    rw [← Cycle.coe_cons_eq_coe_append, Cycle.chain_coe_cons]
    rw [split, List.isChain_cons_split] at chain
    exact chain.1

/-- Every module left over has an overrider left over: the walk never has to stop. -/
def AlwaysAdvances (graph : OverrideGraph) (counts : List Nat) : Prop :=
  ∀ index ∈ graph.unresolved counts, ∃ overrider ∈ graph.unresolved counts,
    graph.nextOverrider? counts index = some overrider

theorem Walk.advance {all left walked : List Nat} {start current overrider : Nat}
    (walk : graph.Walk all start left walked current) (unvisited : current ∈ left)
    (edge : graph.Overrides overrider current) (member : overrider ∈ all) :
    graph.Walk all start (left.erase current) (current :: walked) overrider := by
  constructor
  case partition =>
    have moved : (walked ++ left).Perm (walked ++ current :: left.erase current) :=
      (List.perm_cons_erase unvisited).append_left walked
    exact (List.perm_middle.symm.trans moved.symm).trans walk.partition
  case chain => exact List.isChain_cons_cons.mpr ⟨edge, walk.chain⟩
  case visited =>
    intro other visitedNow
    rcases List.mem_cons.mp visitedNow with same | earlier
    · subst same
      exact ⟨member, .head edge (walk.visited current List.mem_cons_self).2⟩
    · exact walk.visited other earlier

/-- A walk that can always go on ends in a circle, from which its start can be reached. -/
theorem circleFrom_isCircle (consistent : graph.Consistent) {counts left walked : List Nat}
    {start current : Nat} (advances : graph.AlwaysAdvances counts)
    (walk : graph.Walk (graph.unresolved counts) start left walked current) :
    graph.IsCircle (graph.circleFrom counts left walked current) ∧
      ∀ member ∈ graph.circleFrom counts left walked current,
        member ∈ graph.unresolved counts ∧ ReflTransGen graph.Overrides member start := by
  have distinct : (graph.unresolved counts).Nodup := List.nodup_range.filter _
  -- The walk shortens `left` at every step, and it stops only at a module visited before.
  induction left, walked, current using circleFrom.induct graph counts with
  | case1 left walked current unvisited overrider found ih =>
      rw [circleFrom, dif_pos unvisited, found]
      rcases advances current (walk.visited current List.mem_cons_self).1 with
        ⟨next, nextMember, nextFound⟩
      have same : next = overrider := Option.some.inj (nextFound.symm.trans found)
      have edge := consistent.mem_incoming.mp (List.mem_of_find?_eq_some found)
      exact ih (walk.advance unvisited edge (same ▸ nextMember))
  | case2 left walked current unvisited stopped =>
      rcases advances current (walk.visited current List.mem_cons_self).1 with ⟨next, _, nextFound⟩
      exact (Option.some_ne_none _ (nextFound.symm.trans stopped)).elim
  | case3 left walked current again =>
      rw [circleFrom, dif_neg again]
      refine ⟨walk.isCircle distinct again, ?_⟩
      intro member inCircle
      exact walk.visited member (List.mem_cons_of_mem _ (List.mem_of_mem_take inCircle))

/-! ## What the finished sweep leaves over -/

theorem mem_unresolved_iff (consistent : graph.Consistent) {index : Nat} :
    index ∈ graph.unresolved graph.finishedSweep.counts ↔
      index < graph.size ∧ index ∉ graph.finishedSweep.taken := by
  have held := finishedSweep_invariant consistent
  simp only [unresolved, List.mem_filter, List.mem_range, decide_eq_true_eq]
  constructor
  · intro member
    rcases member with ⟨bound, positive⟩
    rw [held.counts index bound, Option.getD_some] at positive
    refine ⟨bound, fun member => ?_⟩
    have free := ((held.released index).mp (.inr member)).2
    rw [free] at positive
    exact Nat.lt_irrefl _ positive
  · intro fresh
    rcases fresh with ⟨bound, leftOver⟩
    refine ⟨bound, ?_⟩
    rw [held.counts index bound, Option.getD_some, List.length_pos_iff, Ne,
      outstanding_eq_nil_iff]
    intro allTaken
    exact leftOver ((mem_taken_iff consistent).mpr
      ⟨bound, fun source edge => allTaken source (consistent.mem_incoming.mpr edge)⟩)

theorem finishedSweep_alwaysAdvances (consistent : graph.Consistent) :
    graph.AlwaysAdvances graph.finishedSweep.counts := by
  intro index member
  rcases (mem_unresolved_iff consistent).mp member with ⟨bound, leftOver⟩
  have held := finishedSweep_invariant consistent
  have stuck : ∃ source, graph.Overrides source index ∧ source ∉ graph.finishedSweep.taken := by
    by_contra none
    refine leftOver ((mem_taken_iff consistent).mpr ⟨bound, fun source edge => ?_⟩)
    by_contra fresh
    exact none ⟨source, edge, fresh⟩
  rcases stuck with ⟨source, edge, fresh⟩
  have sourceMember := (mem_unresolved_iff consistent).mpr ⟨consistent.source_lt edge, fresh⟩
  cases found : graph.nextOverrider? graph.finishedSweep.counts index with
  | none =>
      have exhausted := List.find?_eq_none.mp found source (consistent.mem_incoming.mpr edge)
      exact (exhausted (List.mem_filter.mp sourceMember).2).elim
  | some overrider =>
      have positive := List.find?_some found
      have overriderEdge := consistent.mem_incoming.mp (List.mem_of_find?_eq_some found)
      refine ⟨overrider, List.mem_filter.mpr ⟨?_, positive⟩, rfl⟩
      exact List.mem_range.mpr (consistent.source_lt overriderEdge)

/-- From a module left over, the walk finds a circle of modules left over. -/
theorem exists_circle (consistent : graph.Consistent) {start : Nat}
    (member : start ∈ graph.unresolved graph.finishedSweep.counts) :
    let counts := graph.finishedSweep.counts
    let circle := graph.circleFrom counts (graph.unresolved counts) [] start
    graph.IsCircle circle ∧ ∀ other ∈ circle,
      other ∈ graph.unresolved counts ∧ ReflTransGen graph.Overrides other start := by
  refine circleFrom_isCircle consistent (finishedSweep_alwaysAdvances consistent) ?_
  constructor
  case partition => exact .refl _
  case chain => exact .singleton _
  case visited =>
    intro other visitedNow
    rw [List.mem_singleton.mp visitedNow]
    exact ⟨member, .refl⟩

/-- The sweep leaves over exactly what lies on or below a cycle. -/
theorem mem_unresolved_iff_belowCycle (consistent : graph.Consistent) {index : Nat} :
    index ∈ graph.unresolved graph.finishedSweep.counts ↔ graph.BelowCycle index := by
  constructor
  · intro member
    rcases exists_circle consistent member with ⟨isCircle, reach⟩
    rcases List.exists_mem_of_ne_nil _ isCircle.nonempty with ⟨top, topMember⟩
    exact ⟨top, isCircle.transGen topMember topMember, (reach top topMember).2⟩
  · intro below
    have held := finishedSweep_invariant consistent
    rcases below with ⟨top, around, path⟩
    have topBound : top < graph.size := by
      rcases TransGen.head'_iff.mp around with ⟨_, edge, _⟩
      exact consistent.source_lt edge
    exact (mem_unresolved_iff consistent).mpr
      ⟨consistent.lt_of_reflTransGen topBound path,
        fun taken => held.not_belowCycle consistent taken ⟨top, around, path⟩⟩

end Overlay.OverrideGraph
