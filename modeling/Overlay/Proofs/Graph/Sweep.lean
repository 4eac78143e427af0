import Mathlib.Data.List.Nodup
import Overlay.Graph.LoadOrder
import Overlay.Proofs.Graph.Edges

/-!
# What a sweep keeps

A sweep counts for each module the overriders it has not taken.  The counts decide
when a module is released, so a module is waiting or taken exactly when all its
overriders are taken.  `SweepInvariant` says this of one state; a step preserves it,
and therefore it holds of the finished sweep, where nothing waits any more.
-/

namespace Overlay.OverrideGraph

open Relation

variable {graph : OverrideGraph}

/-- The overriders of a module that a sweep has not taken. -/
def outstanding (graph : OverrideGraph) (taken : List Nat) (index : Nat) : List Nat :=
  (graph.incoming index).filter fun source => source ∉ taken

/-- Every module on the list stands in front of all its overriders. -/
def Placed (graph : OverrideGraph) : List Nat → Prop
  | [] => True
  | index :: later => (∀ source ∈ graph.incoming index, source ∈ later) ∧ Placed graph later

/-- The modules that none overrides, in roster order. -/
def outermost (graph : OverrideGraph) : List Nat :=
  (List.range graph.size).filter fun index => !graph.isOverridden index

theorem outstanding_nil (index : Nat) :
    graph.outstanding [] index = graph.incoming index := by
  simp [outstanding]

theorem outstanding_eq_nil_iff {taken : List Nat} {index : Nat} :
    graph.outstanding taken index = [] ↔ ∀ source ∈ graph.incoming index, source ∈ taken := by
  simp [outstanding, List.filter_eq_nil_iff]

/-- Taking a module takes it off the outstanding overriders of every other. -/
theorem outstanding_cons (consistent : graph.Consistent) (taken : List Nat)
    (source index : Nat) :
    graph.outstanding (source :: taken) index =
      (graph.outstanding taken index).erase source := by
  have distinct : (graph.outstanding taken index).Nodup :=
    (consistent.incoming_nodup index).filter _
  rw [distinct.erase_eq_filter, outstanding, outstanding, List.filter_filter]
  apply List.filter_congr
  intro other _
  by_cases same : other = source <;> simp [same]

theorem mem_outstanding (consistent : graph.Consistent) {taken : List Nat}
    {source index : Nat} (fresh : source ∉ taken) :
    source ∈ graph.outstanding taken index ↔ graph.Overrides source index := by
  simp [outstanding, fresh, consistent.mem_incoming]

/-! ## Releasing what a module overrides -/

namespace Sweep

@[simp] theorem taken_release (sweep : Sweep) (index : Nat) :
    (sweep.release index).taken = sweep.taken := by
  unfold release
  split <;> rfl

@[simp] theorem length_counts_release (sweep : Sweep) (index : Nat) :
    (sweep.release index).counts.length = sweep.counts.length := by
  unfold release
  split
  · simp
  · rfl

theorem counts_release (sweep : Sweep) (index other : Nat) :
    (sweep.release index).counts[other]? =
      if other = index then (sweep.counts[other]?).map (· - 1) else sweep.counts[other]? := by
  unfold release
  split
  · next count found =>
      by_cases same : other = index
      · have bound := (List.getElem?_eq_some_iff.mp found).1
        rw [if_pos same, same, found, List.getElem?_set_self bound]
        rfl
      · simp [same, List.getElem?_set_ne (Ne.symm same)]
  · next exhausted =>
      by_cases same : other = index
      · rw [if_pos same, same]
        cases found : sweep.counts[index]? with
        | none => rfl
        | some count =>
            cases count with
            | zero => rfl
            | succ count => exact (exhausted count found).elim
      · rw [if_neg same]

theorem waiting_release (sweep : Sweep) (index : Nat) :
    (sweep.release index).waiting =
      if sweep.counts[index]? = some 1 then index :: sweep.waiting else sweep.waiting := by
  unfold release
  split
  · next count found =>
      cases count <;> simp [found]
  · next exhausted =>
      rw [if_neg (exhausted 0)]

/-- Releasing touches the stack of taken modules never. -/
@[simp] theorem taken_releases (indices : List Nat) (sweep : Sweep) :
    (indices.foldl release sweep).taken = sweep.taken := by
  induction indices generalizing sweep with
  | nil => rfl
  | cons index rest ih => exact (ih _).trans (taken_release sweep index)

/-- Each module released lowers its own count by one. -/
theorem counts_releases {indices : List Nat} (distinct : indices.Nodup) (sweep : Sweep)
    (other : Nat) :
    (indices.foldl release sweep).counts[other]? =
      if other ∈ indices then (sweep.counts[other]?).map (· - 1) else sweep.counts[other]? := by
  induction indices generalizing sweep with
  | nil => simp
  | cons index rest ih =>
      rw [List.nodup_cons] at distinct
      rw [List.foldl_cons, ih distinct.2, counts_release]
      by_cases same : other = index
      · subst same
        simp [distinct.1]
      · simp [same]

/-- The modules whose last overrider was counted wait on top, the last on the very top. -/
theorem waiting_releases {indices : List Nat} (distinct : indices.Nodup) (sweep : Sweep) :
    (indices.foldl release sweep).waiting =
      (indices.filter fun index => sweep.counts[index]? = some 1).reverse ++ sweep.waiting := by
  induction indices generalizing sweep with
  | nil => rfl
  | cons index rest ih =>
      rw [List.nodup_cons] at distinct
      have untouched : (rest.filter fun other => (sweep.release index).counts[other]? = some 1) =
          rest.filter fun other => sweep.counts[other]? = some 1 := by
        apply List.filter_congr
        intro other member
        have different : other ≠ index := fun same => distinct.1 (same ▸ member)
        rw [counts_release, if_neg different]
      rw [List.foldl_cons, ih distinct.2, untouched, waiting_release, List.filter_cons]
      by_cases last : sweep.counts[index]? = some 1 <;> simp [last]

end Sweep

/-! ## The invariant -/

/-- What holds of a sweep after any number of steps. -/
structure SweepInvariant (graph : OverrideGraph) (sweep : Sweep) : Prop where
  counts : ∀ index < graph.size,
    sweep.counts[index]? = some (graph.outstanding sweep.taken index).length
  released : ∀ index, index ∈ sweep.waiting ∨ index ∈ sweep.taken ↔
    index < graph.size ∧ graph.outstanding sweep.taken index = []
  distinct : (sweep.waiting ++ sweep.taken).Nodup
  placed : graph.Placed sweep.taken
  /-- Outermost modules leave the stack in the reverse of roster order, whatever is
  pushed on top of them. -/
  outermost : (sweep.waiting.filter fun index => !graph.isOverridden index).reverse ++
    (sweep.taken.filter fun index => !graph.isOverridden index) = graph.outermost

/-- The sweep starts with the outermost modules on its stack. -/
theorem waiting_initialSweep (graph : OverrideGraph) :
    graph.initialSweep.waiting = graph.outermost.reverse := by
  simp only [initialSweep, outermost]
  congr 1
  apply List.filter_congr
  intro index _
  cases overridden : graph.isOverridden index with
  | false => simp [isOverridden_eq_false_iff.mp overridden]
  | true => simpa [isOverridden] using overridden

theorem initialSweep_invariant (graph : OverrideGraph) :
    graph.SweepInvariant graph.initialSweep := by
  constructor
  case counts =>
    intro index bound
    simp [initialSweep, bound, outstanding_nil]
  case released =>
    intro index
    simp [initialSweep, outstanding_nil]
  case distinct =>
    have untaken : graph.initialSweep.taken = [] := rfl
    rw [waiting_initialSweep, untaken, List.append_nil, List.nodup_reverse]
    exact List.nodup_range.filter _
  case placed => trivial
  case outermost =>
    have untaken : graph.initialSweep.taken = [] := rfl
    rw [waiting_initialSweep, untaken, List.filter_reverse, List.reverse_reverse, List.filter_nil,
      List.append_nil, OverrideGraph.outermost, List.filter_filter]
    simp only [Bool.and_self]

/-! ## One step -/

theorem taken_take (index : Nat) (sweep : Sweep) :
    (graph.take index sweep).taken = index :: sweep.taken :=
  Sweep.taken_releases _ _

theorem counts_take (consistent : graph.Consistent) (index other : Nat) (sweep : Sweep) :
    (graph.take index sweep).counts[other]? =
      if other ∈ graph.successors index then (sweep.counts[other]?).map (· - 1)
      else sweep.counts[other]? :=
  Sweep.counts_releases (consistent.successors_nodup index) _ other

theorem waiting_take (consistent : graph.Consistent) (index : Nat) (sweep : Sweep) :
    (graph.take index sweep).waiting =
      ((graph.successors index).filter fun target => sweep.counts[target]? = some 1).reverse ++
        sweep.waiting :=
  Sweep.waiting_releases (consistent.successors_nodup index) _

namespace SweepInvariant

variable {index : Nat} {rest counts taken : List Nat}
  (held : graph.SweepInvariant ⟨index :: rest, counts, taken⟩)
include held

theorem top_fresh : index ∉ taken := fun again =>
  List.disjoint_of_nodup_append held.distinct List.mem_cons_self again

theorem top_outstanding : graph.outstanding taken index = [] :=
  ((held.released index).mp (.inl List.mem_cons_self)).2

/-- The count of a module falls to zero when its only outstanding overrider is taken. -/
theorem count_eq_one_iff (consistent : graph.Consistent) {target : Nat}
    (edge : graph.Overrides index target) :
    counts[target]? = some 1 ↔ graph.outstanding taken target = [index] := by
  have member := (mem_outstanding consistent held.top_fresh).mpr edge
  rw [held.counts target (consistent.target_lt edge), Option.some.injEq]
  constructor
  · intro single
    rcases List.length_eq_one_iff.mp single with ⟨only, equal⟩
    rw [equal, List.mem_singleton] at member
    rw [equal, member]
  · intro equal
    rw [equal, List.length_singleton]

theorem mem_pushed_iff (consistent : graph.Consistent) {target : Nat} :
    target ∈ (graph.successors index).filter (fun target => counts[target]? = some 1) ↔
      graph.outstanding taken target = [index] := by
  rw [List.mem_filter, decide_eq_true_eq]
  constructor
  · intro both
    rcases both with ⟨edge, single⟩
    exact (held.count_eq_one_iff consistent edge).mp single
  · intro equal
    have edge := (mem_outstanding consistent held.top_fresh).mp
      (equal ▸ List.mem_singleton_self index)
    exact ⟨edge, (held.count_eq_one_iff consistent edge).mpr equal⟩

theorem counts_after (consistent : graph.Consistent) (other : Nat) (bound : other < graph.size) :
    (graph.take index ⟨rest, counts, taken⟩).counts[other]? =
      some (graph.outstanding (index :: taken) other).length := by
  rw [counts_take consistent, outstanding_cons consistent, List.length_erase,
    held.counts other bound]
  simp only [mem_outstanding consistent held.top_fresh, Overrides]
  split <;> rfl

/-- Taking the top of the stack releases exactly the modules that wait for nothing else. -/
theorem released_after (consistent : graph.Consistent) (other : Nat) :
    other ∈ (graph.take index ⟨rest, counts, taken⟩).waiting ∨ other ∈ index :: taken ↔
      other < graph.size ∧ graph.outstanding (index :: taken) other = [] := by
  have before := held.released other
  -- Nothing is outstanding afterwards if nothing was, or only the module just taken.
  have alone : (graph.outstanding taken other).erase index = [] ↔
      graph.outstanding taken other = [] ∨ graph.outstanding taken other = [index] := by
    rw [List.erase_eq_nil_iff]
  rw [waiting_take consistent, List.mem_append, List.mem_reverse, held.mem_pushed_iff consistent,
    outstanding_cons consistent, alone]
  constructor
  · intro present
    rcases present with (pushed | waited) | member
    · have edge := (mem_outstanding consistent held.top_fresh).mp
        (pushed ▸ List.mem_singleton_self index)
      exact ⟨consistent.target_lt edge, .inr pushed⟩
    · have old := before.mp (.inl (List.mem_cons_of_mem _ waited))
      exact ⟨old.1, .inl old.2⟩
    · have old := before.mp (by
        rcases List.mem_cons.mp member with same | earlier
        · exact .inl (same ▸ List.mem_cons_self)
        · exact .inr earlier)
      exact ⟨old.1, .inl old.2⟩
  · intro settled
    rcases settled with ⟨bound, free | single⟩
    · rcases before.mpr ⟨bound, free⟩ with waited | earlier
      · rcases List.mem_cons.mp waited with same | below
        · exact .inr (same ▸ List.mem_cons_self)
        · exact .inl (.inr below)
      · exact .inr (List.mem_cons_of_mem _ earlier)
    · exact .inl (.inl single)

/-- No module is pushed twice. -/
theorem distinct_after (consistent : graph.Consistent) :
    ((graph.take index ⟨rest, counts, taken⟩).waiting ++ index :: taken).Nodup := by
  have before : (rest ++ index :: taken).Nodup :=
    List.perm_middle.nodup_iff.mpr held.distinct
  rw [waiting_take consistent, List.append_assoc, List.nodup_append]
  refine ⟨List.nodup_reverse.mpr ((consistent.successors_nodup index).filter _), before, ?_⟩
  intro target pushed other present same
  subst same
  have single := (held.mem_pushed_iff consistent).mp (List.mem_reverse.mp pushed)
  have free := (held.released target).mp (by
    rcases List.mem_append.mp present with waited | member
    · exact .inl (List.mem_cons_of_mem _ waited)
    · rcases List.mem_cons.mp member with same | earlier
      · exact .inl (same ▸ List.mem_cons_self)
      · exact .inr earlier)
  rw [free.2] at single
  exact List.cons_ne_nil _ _ single.symm

theorem outermost_after (consistent : graph.Consistent) :
    ((graph.take index ⟨rest, counts, taken⟩).waiting.filter
        fun index => !graph.isOverridden index).reverse ++
      ((index :: taken).filter fun index => !graph.isOverridden index) = graph.outermost := by
  -- Whatever is pushed has an overrider, so the outermost modules keep their places.
  have pushedNone : ((graph.successors index).filter
      fun target => counts[target]? = some 1).filter
        (fun target => !graph.isOverridden target) = [] := by
    apply List.filter_eq_nil_iff.mpr
    intro target pushed
    have edge : graph.Overrides index target := (List.mem_filter.mp pushed).1
    simp [consistent.isOverridden_iff.mpr ⟨index, edge⟩]
  have before := held.outermost
  rw [waiting_take consistent, List.filter_append, List.filter_reverse, pushedNone,
    List.reverse_nil, List.nil_append, ← before]
  simp only [List.filter_cons]
  split <;> simp

/-- Taking the top of the stack keeps the invariant. -/
theorem take (consistent : graph.Consistent) :
    graph.SweepInvariant (graph.take index ⟨rest, counts, taken⟩) := by
  have after : (graph.take index ⟨rest, counts, taken⟩).taken = index :: taken :=
    taken_take index _
  constructor
  case counts => rw [after]; exact held.counts_after consistent
  case released => rw [after]; exact held.released_after consistent
  case distinct => rw [after]; exact held.distinct_after consistent
  case placed =>
    rw [after]
    exact ⟨outstanding_eq_nil_iff.mp held.top_outstanding, held.placed⟩
  case outermost => rw [after]; exact held.outermost_after consistent

end SweepInvariant

/-! ## The finished sweep -/

theorem runSweep_invariant (consistent : graph.Consistent) (sweep : Sweep)
    (held : graph.SweepInvariant sweep) :
    graph.SweepInvariant (graph.runSweep sweep) ∧ (graph.runSweep sweep).waiting = [] := by
  induction sweep using runSweep.induct graph with
  | case1 counts taken =>
      rw [runSweep]
      exact ⟨held, rfl⟩
  | case2 index rest counts taken ih =>
      rw [runSweep]
      exact ih (held.take consistent)

theorem finishedSweep_invariant (consistent : graph.Consistent) :
    graph.SweepInvariant graph.finishedSweep :=
  (runSweep_invariant consistent _ (initialSweep_invariant graph)).1

/-- A module is taken exactly when all its overriders are. -/
theorem mem_taken_iff (consistent : graph.Consistent) {index : Nat} :
    index ∈ graph.finishedSweep.taken ↔
      index < graph.size ∧
        ∀ source, graph.Overrides source index → source ∈ graph.finishedSweep.taken := by
  have held := finishedSweep_invariant consistent
  have empty : graph.finishedSweep.waiting = [] :=
    (runSweep_invariant consistent _ (initialSweep_invariant graph)).2
  have released := held.released index
  rw [empty, outstanding_eq_nil_iff] at released
  simpa only [List.not_mem_nil, false_or, consistent.mem_incoming] using released

/-! ## Order -/

/-- On a list of placed modules every overrider of a member is a member further back. -/
theorem Placed.idxOf_lt (consistent : graph.Consistent) {order : List Nat}
    (placed : graph.Placed order) (distinct : order.Nodup) {source target : Nat}
    (edge : graph.Overrides source target) (member : target ∈ order) :
    source ∈ order ∧ order.idxOf target < order.idxOf source := by
  induction order with
  | nil => exact (List.not_mem_nil member).elim
  | cons head later ih =>
      rw [List.nodup_cons] at distinct
      rcases List.mem_cons.mp member with same | further
      · subst same
        have behind := placed.1 source (consistent.mem_incoming.mpr edge)
        have different : target ≠ source := fun same => distinct.1 (same ▸ behind)
        rw [List.idxOf_cons_self, List.idxOf_cons_ne _ different]
        exact ⟨List.mem_cons_of_mem _ behind, Nat.succ_pos _⟩
      · rcases ih placed.2 distinct.2 further with ⟨behind, before⟩
        have targetDifferent : head ≠ target := fun same => distinct.1 (same ▸ further)
        have sourceDifferent : head ≠ source := fun same => distinct.1 (same ▸ behind)
        rw [List.idxOf_cons_ne _ targetDifferent, List.idxOf_cons_ne _ sourceDifferent]
        exact ⟨List.mem_cons_of_mem _ behind, Nat.succ_lt_succ before⟩

theorem Placed.idxOf_lt_of_transGen (consistent : graph.Consistent) {order : List Nat}
    (placed : graph.Placed order) (distinct : order.Nodup) {source target : Nat}
    (path : TransGen graph.Overrides source target) (member : target ∈ order) :
    source ∈ order ∧ order.idxOf target < order.idxOf source := by
  induction path with
  | single edge => exact placed.idxOf_lt consistent distinct edge member
  | tail _ edge ih =>
      rcases placed.idxOf_lt consistent distinct edge member with ⟨middle, last⟩
      rcases ih middle with ⟨first, earlier⟩
      exact ⟨first, Nat.lt_trans last earlier⟩

/-- No taken module lies below a cycle. -/
theorem SweepInvariant.not_belowCycle (consistent : graph.Consistent) {sweep : Sweep}
    (held : graph.SweepInvariant sweep) {index : Nat} (member : index ∈ sweep.taken) :
    ¬ graph.BelowCycle index := by
  have distinct := (List.nodup_append.mp held.distinct).2.1
  intro below
  rcases below with ⟨top, around, path⟩
  have topTaken : top ∈ sweep.taken := by
    rcases reflTransGen_iff_eq_or_transGen.mp path with same | below
    · exact same ▸ member
    · exact (held.placed.idxOf_lt_of_transGen consistent distinct below member).1
  have turned := held.placed.idxOf_lt_of_transGen consistent distinct around topTaken
  exact Nat.lt_irrefl _ turned.2

end Overlay.OverrideGraph
