import Overlay.Proofs.Layers

/-!
# Shared bases

A module with several overriders has one slot, so only one of them can become its base's
owner.  Folding gives it to the overrider that comes first in the order; an edge from a
later one finds the slot empty.  `claimed` keeps the edges that count.  They form a graph
of their own in which no module has two overriders, and folding cannot tell the two
graphs apart.  What is known of graphs without shared bases therefore carries over: nothing
is lost and nothing appears twice.
-/

namespace Overlay

open Relation

namespace Folding

/-- Slots that are empty anyway need not be asked for. -/
theorem withdraw_filter {targets : List Nat} (distinct : targets.Nodup) (keep : Nat → Bool)
    (pending : List (Option EffectiveModule))
    (empty : ∀ target ∈ targets, keep target = false → (pending[target]?).join = none) :
    withdraw (targets.filter keep) pending = withdraw targets pending := by
  apply Prod.ext
  · rw [withdraw_fst distinct, withdraw_fst (distinct.filter _), List.filterMap_filter]
    apply List.filterMap_congr
    intro target member
    cases kept : keep target with
    | true => rfl
    | false => exact (empty target member kept).symm
  · apply List.ext_getElem?
    intro index
    rw [getElem?_withdraw_snd, getElem?_withdraw_snd]
    by_cases member : index ∈ targets
    case neg => simp [member]
    cases kept : keep index with
    | true => simp [member, kept]
    | false =>
        have slot := empty index member kept
        cases found : pending[index]? with
        | none => simp
        | some content =>
            rw [found, Option.join_some] at slot
            simp [kept, slot]

end Folding

namespace OverrideGraph

variable {graph : OverrideGraph} {order : List Nat}

/-- The modules that a module overrides before any other module on the list does. -/
def claimed (graph : OverrideGraph) (order : List Nat) (source : Nat) : List Nat :=
  (graph.successors source).filter fun target =>
    order.find? (fun other => target ∈ graph.successors other) = some source

/-- The graph in which an overridden module keeps the edge from its first overrider on the
list and no other. -/
def claimGraph (graph : OverrideGraph) (order : List Nat) : OverrideGraph where
  nodes := graph.nodes
  overridden := (List.range graph.size).map (graph.claimed order)
  overriders := (List.range graph.size).map fun index =>
    (List.range graph.size).filter fun source =>
      (((List.range graph.size).map (graph.claimed order))[source]?.getD []).contains index

theorem describe_claimGraph : (graph.claimGraph order).describe = graph.describe := rfl

theorem mem_claimed {source target : Nat} :
    target ∈ graph.claimed order source ↔ graph.Overrides source target ∧
      order.find? (fun other => target ∈ graph.successors other) = some source := by
  rw [claimed, List.mem_filter, decide_eq_true_eq]
  rfl

theorem claimed_unique {first second target : Nat} (byFirst : target ∈ graph.claimed order first)
    (bySecond : target ∈ graph.claimed order second) : first = second :=
  Option.some.inj ((mem_claimed.mp byFirst).2.symm.trans (mem_claimed.mp bySecond).2)

/-- A module that some module on the list overrides is claimed. -/
theorem exists_claim {source target : Nat} (edge : graph.Overrides source target)
    (listed : source ∈ order) : ∃ first ∈ order, target ∈ graph.claimed order first := by
  cases found : order.find? (fun other => target ∈ graph.successors other) with
  | none => exact (List.find?_eq_none.mp found source listed (decide_eq_true edge)).elim
  | some first =>
      have holds := List.find?_some found
      have firstEdge : target ∈ graph.successors first := of_decide_eq_true holds
      exact ⟨first, List.mem_of_find?_eq_some found, mem_claimed.mpr ⟨firstEdge, found⟩⟩

/-- The overrider that claims a module stands in front of all others. -/
theorem idxOf_le_of_claimed {source target other : Nat}
    (claim : target ∈ graph.claimed order source) (edge : graph.Overrides other target) :
    order.idxOf source ≤ order.idxOf other := by
  rcases mem_claimed.mp claim with ⟨sourceEdge, found⟩
  rcases List.find?_eq_some_iff_append.mp found with ⟨_, before, after, split, none⟩
  have notBefore : ∀ index, graph.Overrides index target → index ∉ before := by
    intro index indexEdge earlier
    have refused := none index earlier
    simp only [decide_eq_true (p := target ∈ graph.successors index) indexEdge] at refused
    cases refused
  rw [split, List.idxOf_append_of_notMem (notBefore source sourceEdge),
    List.idxOf_append_of_notMem (notBefore other edge), List.idxOf_cons_self]
  exact Nat.le_add_right _ _

theorem mem_claimed_iff_idxOf {source target : Nat} (listed : source ∈ order) :
    target ∈ graph.claimed order source ↔ graph.Overrides source target ∧
      ∀ other, graph.Overrides other target → order.idxOf source ≤ order.idxOf other := by
  constructor
  · intro claim
    exact ⟨(mem_claimed.mp claim).1, fun other => idxOf_le_of_claimed claim⟩
  · intro foremost
    rcases exists_claim foremost.1 listed with ⟨first, firstListed, claim⟩
    have same : order.idxOf source = order.idxOf first :=
      Nat.le_antisymm (foremost.2 first (mem_claimed.mp claim).1)
        (idxOf_le_of_claimed claim foremost.1)
    rw [(List.idxOf_inj listed).mp same]
    exact claim

/-! ## The graph of claims -/

section ClaimGraph

variable (consistent : graph.Consistent)
include consistent

theorem successors_claimGraph (order : List Nat) :
    (graph.claimGraph order).successors = graph.claimed order := by
  funext index
  by_cases bound : index < graph.size
  · simp [successors, claimGraph, bound]
  · have bare : graph.successors index = [] := by
      rw [List.eq_nil_iff_forall_not_mem]
      exact fun target edge => bound (consistent.source_lt edge)
    rw [claimed, bare]
    simp [successors, claimGraph, Nat.le_of_not_lt bound]

theorem overrides_of_claim {source target : Nat}
    (edge : (graph.claimGraph order).Overrides source target) : graph.Overrides source target := by
  rw [Overrides, successors_claimGraph consistent] at edge
  exact (mem_claimed.mp edge).1

theorem claimGraph_consistent (order : List Nat) : (graph.claimGraph order).Consistent := by
  apply Consistent.of_tabulated
  case tabulated => rfl
  case source_lt => exact fun edge => consistent.source_lt (overrides_of_claim consistent edge)
  case target_lt => exact fun edge => consistent.target_lt (overrides_of_claim consistent edge)
  case successors_nodup =>
    intro index
    rw [successors_claimGraph consistent]
    exact (consistent.successors_nodup index).filter _

theorem claimGraph_singlyOverridden (order : List Nat) :
    (graph.claimGraph order).SinglyOverridden := by
  intro first second target firstEdge secondEdge
  rw [Overrides, successors_claimGraph consistent] at firstEdge secondEdge
  exact claimed_unique firstEdge secondEdge

theorem claimGraph_not_cyclic (acyclic : ¬ graph.Cyclic) (order : List Nat) :
    ¬ (graph.claimGraph order).Cyclic := by
  intro cyclic
  rcases cyclic with ⟨index, around⟩
  exact acyclic ⟨index, around.lift id fun _ _ => overrides_of_claim consistent⟩

theorem isOverridden_claimGraph (listed : ∀ index < graph.size, index ∈ order) (index : Nat) :
    (graph.claimGraph order).isOverridden index = graph.isOverridden index := by
  rw [Bool.eq_iff_iff, consistent.isOverridden_iff,
    (claimGraph_consistent consistent order).isOverridden_iff]
  constructor
  · intro claimed
    rcases claimed with ⟨source, edge⟩
    exact ⟨source, overrides_of_claim consistent edge⟩
  · intro overridden
    rcases overridden with ⟨source, edge⟩
    rcases exists_claim edge (listed source (consistent.source_lt edge)) with ⟨first, _, claim⟩
    refine ⟨first, ?_⟩
    rw [Overrides, successors_claimGraph consistent]
    exact claim

end ClaimGraph

/-! ## Folding does not see the edges dropped -/

/-- The slot of a module that a folded module overrides is empty. -/
def Drained (graph : OverrideGraph) (done : List Nat) (folding : Folding) : Prop :=
  ∀ source ∈ done, ∀ target, graph.Overrides source target →
    (folding.pending[target]?).join = none

/-- While a module is folded, none of its overriders has been. -/
theorem BasesFirst.not_overridden_by (basesFirst : graph.BasesFirst order) {done rest : List Nat}
    {index : Nat} (split : order = done ++ index :: rest) :
    ∀ source ∈ done ++ [index], ¬ graph.Overrides source index := by
  intro source member edge
  have fresh := basesFirst.fresh split
  rcases List.mem_append.mp member with earlier | same
  · rcases List.append_of_mem earlier with ⟨before, between, parts⟩
    have based := basesFirst.based before source (between ++ index :: rest)
      (by rw [split, parts, List.append_assoc, List.cons_append]) index edge
    exact fresh (parts ▸ List.mem_append_left _ based)
  · rw [List.mem_singleton.mp same] at edge
    exact fresh (basesFirst.based done index rest split index edge)

theorem Drained.step (basesFirst : graph.BasesFirst order) {done rest : List Nat} {index : Nat}
    (split : order = done ++ index :: rest) {folding : Folding}
    (drained : graph.Drained done folding) :
    graph.Drained (done ++ [index]) (Folding.step graph folding index) := by
  have bound := basesFirst.bounded index (by simp [split])
  intro source member target edge
  -- The slots asked for are emptied, and the others were empty before.
  have emptied : ((Folding.withdraw (graph.successors index) folding.pending).2[target]?).join =
      none := by
    rw [Folding.getElem?_withdraw_snd]
    split
    · cases folding.pending[target]? <;> rfl
    · next other =>
        rcases List.mem_append.mp member with earlier | same
        · exact drained source earlier target edge
        · exact (other (List.mem_singleton.mp same ▸ edge)).elim
  have different : index ≠ target := fun same =>
    basesFirst.not_overridden_by split source member (same ▸ edge)
  rw [step_eq bound]
  cases graph.isOverridden index with
  | true =>
      simp only [if_true]
      rw [List.getElem?_set_ne different]
      exact emptied
  | false =>
      simp only [Bool.false_eq_true, if_false]
      exact emptied

/-- Folding a module gives the same with all edges as with the claims only. -/
theorem step_claimGraph (consistent : graph.Consistent)
    (listed : ∀ index < graph.size, index ∈ order) (basesFirst : graph.BasesFirst order)
    {done rest : List Nat} {index : Nat} (split : order = done ++ index :: rest)
    {folding : Folding} (drained : graph.Drained done folding) :
    Folding.step (graph.claimGraph order) folding index = Folding.step graph folding index := by
  have bound := basesFirst.bounded index (by simp [split])
  have sameBases : Folding.withdraw ((graph.claimGraph order).successors index) folding.pending =
      Folding.withdraw (graph.successors index) folding.pending := by
    rw [successors_claimGraph consistent]
    apply Folding.withdraw_filter (consistent.successors_nodup index)
    intro target edge unclaimed
    have inOrder : index ∈ order := by simp [split]
    rcases exists_claim edge inOrder with ⟨first, firstListed, claim⟩
    have different : index ≠ first := by
      intro same
      rw [same] at unclaimed
      exact of_decide_eq_false unclaimed (mem_claimed.mp claim).2
    -- The claimant comes before this module, so it has been folded and has the target.
    have earlier : first ∈ done := by
      have before := idxOf_le_of_claimed claim edge
      by_contra later
      rw [split, List.idxOf_append_of_notMem later,
        List.idxOf_append_of_notMem (basesFirst.fresh split), List.idxOf_cons_self,
        List.idxOf_cons_ne _ different] at before
      omega
    exact drained first earlier target (mem_claimed.mp claim).1
  have claimBound : index < (graph.claimGraph order).size := bound
  rw [step_eq claimBound, step_eq bound, sameBases, describe_claimGraph,
    isOverridden_claimGraph consistent listed]

/-- Folding the rest of an order gives the same with all edges as with the claims only. -/
theorem foldl_step_claimGraph (consistent : graph.Consistent)
    (listed : ∀ index < graph.size, index ∈ order) (basesFirst : graph.BasesFirst order)
    (rest : List Nat) :
    ∀ {done : List Nat} {folding : Folding}, order = done ++ rest → graph.Drained done folding →
      rest.foldl (Folding.step (graph.claimGraph order)) folding =
        rest.foldl (Folding.step graph) folding := by
  induction rest with
  | nil => exact fun _ _ => rfl
  | cons index rest ih =>
      intro done folding split drained
      rw [List.foldl_cons, List.foldl_cons,
        step_claimGraph consistent listed basesFirst split drained]
      have after := drained.step basesFirst split
      rw [List.append_cons] at split
      exact ih split after

theorem fold_claimGraph (consistent : graph.Consistent)
    (listed : ∀ index < graph.size, index ∈ order) (basesFirst : graph.BasesFirst order) :
    (graph.claimGraph order).fold order = graph.fold order := by
  have initial : graph.Drained [] ⟨List.replicate graph.size none, []⟩ :=
    fun source member => (List.not_mem_nil member).elim
  exact congrArg Folding.finished
    (foldl_step_claimGraph consistent listed basesFirst order rfl initial)

/-! ## What folding shares out -/

/-- How folding in an order shares out the modules of a graph: one effective module for
each outermost module, composed along the claims.  `blocks` lists for each of them the
modules that became its layers. -/
structure SharesOut (graph : OverrideGraph) (order : List Nat) (blocks : List (List Nat)) :
    Prop where
  effects : List.Forall₂ (FoldsTo graph.describe (graph.claimed order)) graph.outermost
    (graph.fold order)
  traversed : List.Forall₂ (PostOrder (graph.claimed order)) graph.outermost blocks
  layers : ((graph.fold order).map fun effect => effect.composition.layers) =
    blocks.map fun block => block.map fun index => (graph.describe index).layer
  /-- Every module is a layer once, over all effective modules together. -/
  each_once : blocks.flatten.Perm (List.range graph.size)
  /-- A module lies directly beneath its first overrider in the order. -/
  mem_claimed_iff : ∀ source target, target ∈ graph.claimed order source ↔
    graph.Overrides source target ∧
      ∀ other, graph.Overrides other target → order.idxOf source ≤ order.idxOf other
  claimed_once : ∀ target, graph.isOverridden target = true →
    ∃! source, target ∈ graph.claimed order source

/-- The trees of claims below the outermost modules hold every module once. -/
theorem flatten_perm_of_claimed (consistent : graph.Consistent) (acyclic : ¬ graph.Cyclic)
    (listed : ∀ index < graph.size, index ∈ order) {blocks : List (List Nat)}
    (traversed : List.Forall₂ (PostOrder (graph.claimed order)) graph.outermost blocks) :
    blocks.flatten.Perm (List.range graph.size) := by
  have claimConsistent := claimGraph_consistent consistent order
  have claimAcyclic := claimGraph_not_cyclic consistent acyclic order
  rcases taken_eq_flatten claimConsistent (claimGraph_singlyOverridden consistent order) with
    ⟨others, each, taken⟩
  have sameOutermost : (graph.claimGraph order).outermost = graph.outermost := by
    apply List.filter_congr
    intro index _
    rw [isOverridden_claimGraph consistent listed]
  rw [sameOutermost, successors_claimGraph consistent] at each
  rw [PostOrder.unique_blocks traversed each, ← taken]
  exact taken_perm claimConsistent claimAcyclic

/-- Folding in an order that lists bases first composes modules along the claims. -/
theorem fold_foldsTo_claimed (consistent : graph.Consistent)
    (listed : ∀ index < graph.size, index ∈ order) (basesFirst : graph.BasesFirst order) :
    List.Forall₂ (FoldsTo graph.describe (graph.claimed order))
      (order.filter fun index => !graph.isOverridden index) (graph.fold order) := by
  have claimsFirst : (graph.claimGraph order).BasesFirst order := by
    constructor
    case bounded => exact basesFirst.bounded
    case nodup => exact basesFirst.nodup
    case based =>
      intro done index rest split target edge
      exact basesFirst.based done index rest split target (overrides_of_claim consistent edge)
  have folded := fold_foldsTo (claimGraph_consistent consistent order)
    (claimGraph_singlyOverridden consistent order) claimsFirst
  rw [fold_claimGraph consistent listed basesFirst, successors_claimGraph consistent,
    describe_claimGraph] at folded
  simpa only [isOverridden_claimGraph consistent listed] using folded

/-- Whoever overrides whom, as long as it is not in a circle: folding in load order loses no
module and repeats none, and an overridden module goes to its first overrider. -/
theorem fold_loadOrder_sharesOut (roster : Roster) (acyclic : ¬ (build roster).value.Cyclic) :
    let graph := (build roster).value
    ∃ order blocks, graph.loadOrder.value = .ok order ∧ graph.SharesOut order blocks := by
  intro graph
  have consistent : graph.Consistent := consistent_ofRoster roster
  have loadOrder := isLoadOrder_taken consistent acyclic
  have listed : ∀ index < graph.size, index ∈ graph.finishedSweep.taken := fun index bound =>
    loadOrder.perm.mem_iff.mpr (List.mem_range.mpr bound)
  have folded := fold_foldsTo_claimed consistent listed
    (basesFirst_of_perm loadOrder.perm loadOrder.overridden_first)
  rw [loadOrder.outermost_in_order] at folded
  rcases FoldsTo.exists_blocks (folded.imp fun _ _ => FoldsTo.traversed) with
    ⟨blocks, traversed, layers⟩
  refine ⟨graph.finishedSweep.taken, blocks, ?_, ?_⟩
  · rw [value_loadOrder, orderOrCycle_of_not_cyclic consistent acyclic]
  constructor
  case effects => exact folded
  case traversed => exact traversed
  case layers => exact layers
  case each_once => exact flatten_perm_of_claimed consistent acyclic listed traversed
  case mem_claimed_iff =>
    intro source target
    by_cases bound : source < graph.size
    case pos => exact mem_claimed_iff_idxOf (listed source bound)
    constructor
    · exact fun claim => (bound (consistent.source_lt (mem_claimed.mp claim).1)).elim
    · exact fun foremost => (bound (consistent.source_lt foremost.1)).elim
  case claimed_once =>
    intro target overridden
    rcases consistent.isOverridden_iff.mp overridden with ⟨source, edge⟩
    rcases exists_claim edge (listed source (consistent.source_lt edge)) with ⟨first, _, claim⟩
    exact ⟨first, claim, fun other otherClaim => claimed_unique otherClaim claim⟩

/-- A base with three overriders, one of them below another. -/
theorem fold_of_shared_base :
    let roster := (Roster.ofContributions [
      .plain "upper" ["shared", "middle"], .plain "shared" [], .plain "other" ["shared"],
      .plain "middle" ["shared"]]).value
    let graph := (build roster).value
    ¬ graph.Cyclic ∧
      ∃ order blocks, graph.loadOrder.value = .ok order ∧ graph.SharesOut order blocks := by
  intro roster graph
  have consistent : graph.Consistent := consistent_ofRoster roster
  have acyclic : ¬ graph.Cyclic :=
    consistent.not_cyclic_of_rank (fun index => [2, 0, 1, 1][index]?.getD 0) (by decide)
  exact ⟨acyclic, fold_loadOrder_sharesOut roster acyclic⟩

end OverrideGraph

end Overlay
