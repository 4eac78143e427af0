import Mathlib.Data.List.Perm.Subperm
import Overlay.Proofs.Graph.Circle

/-!
# Moments of a sweep

Between taking one module and taking the next, a sweep counts for one overridden module
after the other that an overrider was taken.  Here it is looked at after each of these
steps, with a record of what was put on the stack.  A count can be lowered only while it is
not zero: there is no step for a count of zero, so a sweep that came to one would be stuck.
`Tallied` says what holds at any moment, whatever the graph is, and from it that no sweep is
ever stuck.
-/

namespace Overlay.OverrideGraph

open Relation

variable {graph : OverrideGraph}

/-- A moment of a sweep. -/
structure Moment where
  sweep : Sweep
  /-- The modules still to be counted for the module taken last. -/
  releasing : List Nat
  /-- Everything ever put on the stack, in this order. -/
  pushed : List Nat

/-- The outermost modules are put on the stack before the first step. -/
def start (graph : OverrideGraph) : Moment :=
  ⟨graph.initialSweep, [], graph.initialSweep.waiting.reverse⟩

/-- One step from a moment to the next. -/
inductive Step (graph : OverrideGraph) : Moment → Moment → Prop where
  /-- The top of the stack is taken. -/
  | pop {index : Nat} {rest counts taken pushed : List Nat} :
      Step graph ⟨⟨index :: rest, counts, taken⟩, [], pushed⟩
        ⟨⟨rest, counts, index :: taken⟩, graph.successors index, pushed⟩
  /-- A count that is not zero is lowered, and at zero the module is put on the stack. -/
  | release {sweep : Sweep} {target count : Nat} {rest pushed : List Nat}
      (found : sweep.counts[target]? = some (count + 1)) :
      Step graph ⟨sweep, target :: rest, pushed⟩
        ⟨sweep.release target, rest, if count = 0 then pushed ++ [target] else pushed⟩

/-- The moments of the sweep over a graph. -/
def Reached (graph : OverrideGraph) : Moment → Prop := ReflTransGen graph.Step graph.start

/-- The sweeps with which the loop comes round. -/
inductive ComesRound (graph : OverrideGraph) : Sweep → Prop where
  | first : ComesRound graph graph.initialSweep
  | next {index : Nat} {rest counts taken : List Nat}
      (before : ComesRound graph ⟨index :: rest, counts, taken⟩) :
      ComesRound graph (graph.take index ⟨rest, counts, taken⟩)

/-- A moment leaves nothing open as to what comes next. -/
theorem Step.unique {moment next other : Moment} (step : graph.Step moment next)
    (otherStep : graph.Step moment other) : next = other := by
  cases step with
  | pop =>
      cases otherStep with
      | pop => rfl
  | release found =>
      cases otherStep with
      | release otherFound =>
          cases Option.some.inj (found.symm.trans otherFound)
          rfl

/-! ## What holds at any moment -/

/-- What is no longer outstanding once a module is taken is what it overrides. -/
theorem length_outstanding_cons (consistent : graph.Consistent) {taken : List Nat} {source : Nat}
    (fresh : source ∉ taken) (index : Nat) :
    (graph.outstanding (source :: taken) index).length + (graph.successors source).count index =
      (graph.outstanding taken index).length := by
  rw [outstanding_cons consistent]
  by_cases edge : index ∈ graph.successors source
  · have member := (mem_outstanding consistent fresh).mpr edge
    rw [List.length_erase_of_mem member,
      List.count_eq_one_of_mem (consistent.successors_nodup source) edge]
    exact Nat.sub_add_cancel (List.length_pos_of_mem member)
  · have absent := mt (mem_outstanding consistent fresh).mp edge
    rw [List.erase_of_not_mem absent, List.count_eq_zero_of_not_mem edge, Nat.add_zero]

/-- What holds of a moment after any number of steps. -/
structure Moment.Kept (graph : OverrideGraph) (moment : Moment) : Prop where
  length_counts : moment.sweep.counts.length = graph.size
  counts : ∀ index < graph.size, moment.sweep.counts[index]? =
    some ((graph.outstanding moment.sweep.taken index).length + moment.releasing.count index)
  releasing_nodup : moment.releasing.Nodup
  releasing_lt : ∀ index ∈ moment.releasing, index < graph.size
  pushed_perm : moment.pushed.Perm (moment.sweep.waiting ++ moment.sweep.taken)
  pushed_nodup : moment.pushed.Nodup
  mem_pushed_iff : ∀ index, index ∈ moment.pushed ↔ moment.sweep.counts[index]? = some 0

namespace Moment.Kept

theorem start (graph : OverrideGraph) : graph.start.Kept graph := by
  constructor
  case length_counts => simp [OverrideGraph.start, initialSweep]
  case counts =>
    intro index bound
    simp [OverrideGraph.start, initialSweep, bound, outstanding_nil]
  case releasing_nodup => simp [OverrideGraph.start]
  case releasing_lt => simp [OverrideGraph.start]
  case pushed_perm => simp [OverrideGraph.start, initialSweep]
  case pushed_nodup =>
    simp only [OverrideGraph.start, waiting_initialSweep, List.reverse_reverse]
    exact List.nodup_range.filter _
  case mem_pushed_iff =>
    intro index
    by_cases bound : index < graph.size
    · simp [OverrideGraph.start, initialSweep, bound]
    · simp [OverrideGraph.start, initialSweep, bound]

variable {index target count : Nat} {rest counts taken pushed : List Nat}

/-- The top of the stack is not among the modules taken. -/
theorem top_fresh
    (held : Moment.Kept graph ⟨⟨index :: rest, counts, taken⟩, [], pushed⟩) : index ∉ taken := by
  have distinct := held.pushed_perm.nodup_iff.mp held.pushed_nodup
  intro again
  exact List.disjoint_of_nodup_append distinct List.mem_cons_self again

/-- Taking the top of the stack alters no count. -/
theorem pop (consistent : graph.Consistent)
    (held : Moment.Kept graph ⟨⟨index :: rest, counts, taken⟩, [], pushed⟩) :
    Moment.Kept graph
      ⟨⟨rest, counts, index :: taken⟩, graph.successors index, pushed⟩ := by
  constructor
  case length_counts => exact held.length_counts
  case counts =>
    intro other bound
    -- The module taken is counted as outstanding no longer, but as still to be counted for.
    simpa [length_outstanding_cons consistent held.top_fresh] using held.counts other bound
  case releasing_nodup => exact consistent.successors_nodup index
  case releasing_lt => exact fun other edge => consistent.target_lt edge
  case pushed_perm => exact held.pushed_perm.trans List.perm_middle.symm
  case pushed_nodup => exact held.pushed_nodup
  case mem_pushed_iff => exact held.mem_pushed_iff

/-- The count of a module that is yet to be counted for is not zero. -/
theorem positive {sweep : Sweep}
    (held : Moment.Kept graph ⟨sweep, target :: rest, pushed⟩) :
    ∃ count, sweep.counts[target]? = some (count + 1) := by
  have counted := held.counts target (held.releasing_lt target List.mem_cons_self)
  rw [List.count_cons_self] at counted
  exact ⟨_, counted⟩

/-- A count is lowered for one overrider, and the last one puts the module on the stack. -/
theorem release {sweep : Sweep} (found : sweep.counts[target]? = some (count + 1))
    (held : Moment.Kept graph ⟨sweep, target :: rest, pushed⟩) :
    Moment.Kept graph
      ⟨sweep.release target, rest, if count = 0 then pushed ++ [target] else pushed⟩ := by
  have distinct := List.nodup_cons.mp held.releasing_nodup
  have absent : target ∉ pushed := by
    simp [held.mem_pushed_iff, found]
  have joined : (pushed ++ [target]).Perm (target :: pushed) :=
    List.perm_append_singleton target pushed
  constructor
  case length_counts => simpa using held.length_counts
  case counts =>
    intro other bound
    have before := held.counts other bound
    simp only [Sweep.counts_release, Sweep.taken_release]
    by_cases same : other = target
    · subst same
      simp [before, List.count_eq_zero_of_not_mem distinct.1]
    · simp [before, same, List.count_cons_of_ne (Ne.symm same)]
  case releasing_nodup => exact distinct.2
  case releasing_lt =>
    intro other member
    exact held.releasing_lt other (List.mem_cons_of_mem _ member)
  case pushed_perm =>
    by_cases last : count = 0
    · simpa [Sweep.waiting_release, found, last] using joined.trans (held.pushed_perm.cons target)
    · simpa [Sweep.waiting_release, found, last] using held.pushed_perm
  case pushed_nodup =>
    by_cases last : count = 0
    · simp [last, joined.nodup_iff, absent, held.pushed_nodup]
    · simpa [last] using held.pushed_nodup
  case mem_pushed_iff =>
    intro other
    have before := held.mem_pushed_iff other
    simp only [Sweep.counts_release]
    by_cases same : other = target
    · subst same
      by_cases last : count = 0
      · simp [found, last]
      · simp [found, last, absent]
    · by_cases last : count = 0
      · simp [last, same, before]
      · simp [last, same, before]

/-- Every step keeps what holds. -/
theorem step (consistent : graph.Consistent) {moment next : Moment}
    (held : moment.Kept graph) (step : graph.Step moment next) : next.Kept graph := by
  cases step with
  | pop => exact held.pop consistent
  | release found => exact held.release found

theorem steps (consistent : graph.Consistent) {moment later : Moment}
    (held : moment.Kept graph) (path : ReflTransGen graph.Step moment later) :
    later.Kept graph := by
  induction path with
  | refl => exact held
  | tail _ step ih => exact ih.step consistent step

end Moment.Kept

/-! ## No moment is stuck -/

/-- Nothing is left to count and nothing is waiting. -/
def Moment.Over (moment : Moment) : Prop := moment.releasing = [] ∧ moment.sweep.waiting = []

namespace Moment.Kept

theorem advances {moment : Moment} (held : moment.Kept graph) :
    moment.Over ∨ ∃ next, graph.Step moment next := by
  rcases moment with ⟨⟨waiting, counts, taken⟩, releasing, pushed⟩
  cases releasing with
  | nil =>
      cases waiting with
      | nil => exact .inl ⟨rfl, rfl⟩
      | cons index rest => exact .inr ⟨_, .pop⟩
  | cons target rest =>
      rcases held.positive with ⟨count, found⟩
      exact .inr ⟨_, .release found⟩

/-- What is to be counted is counted step after step. -/
theorem releases (indices : List Nat) {sweep : Sweep} {pushed : List Nat}
    (held : Moment.Kept graph ⟨sweep, indices, pushed⟩) :
    ∃ after, ReflTransGen graph.Step ⟨sweep, indices, pushed⟩
      ⟨indices.foldl Sweep.release sweep, [], after⟩ := by
  induction indices generalizing sweep pushed with
  | nil => exact ⟨pushed, .refl⟩
  | cons target rest ih =>
      rcases held.positive with ⟨count, found⟩
      rcases ih (held.release found) with ⟨after, further⟩
      exact ⟨after, .head (.release found) further⟩

/-- Taking one module is one step and then one for each module that it overrides. -/
theorem takes (consistent : graph.Consistent) {index : Nat} {rest counts taken pushed : List Nat}
    (held : Moment.Kept graph ⟨⟨index :: rest, counts, taken⟩, [], pushed⟩) :
    ∃ after, ReflTransGen graph.Step ⟨⟨index :: rest, counts, taken⟩, [], pushed⟩
      ⟨graph.take index ⟨rest, counts, taken⟩, [], after⟩ := by
  rcases (held.pop consistent).releases with ⟨after, further⟩
  exact ⟨after, .head .pop further⟩

theorem runs (consistent : graph.Consistent) (sweep : Sweep) {pushed : List Nat}
    (held : Moment.Kept graph ⟨sweep, [], pushed⟩) :
    ∃ after, ReflTransGen graph.Step ⟨sweep, [], pushed⟩ ⟨graph.runSweep sweep, [], after⟩ := by
  induction sweep using runSweep.induct graph generalizing pushed with
  | case1 counts taken =>
      rw [runSweep]
      exact ⟨pushed, .refl⟩
  | case2 index rest counts taken ih =>
      rw [runSweep]
      rcases held.takes consistent with ⟨between, first⟩
      rcases ih (held.steps consistent first) with ⟨after, further⟩
      exact ⟨after, first.trans further⟩

end Moment.Kept

/-! ## The moments and the loop -/

theorem ComesRound.runSweep_eq {sweep : Sweep} (round : graph.ComesRound sweep) :
    graph.runSweep sweep = graph.finishedSweep := by
  induction round with
  | first => rfl
  | next _ ih => rw [← ih, runSweep]

theorem ComesRound.exists_reached (consistent : graph.Consistent) {sweep : Sweep}
    (round : graph.ComesRound sweep) : ∃ pushed, graph.Reached ⟨sweep, [], pushed⟩ := by
  induction round with
  | first => exact ⟨_, .refl⟩
  | next _ ih =>
      rcases ih with ⟨pushed, reached⟩
      have held := (Moment.Kept.start graph).steps consistent reached
      rcases held.takes consistent with ⟨after, further⟩
      exact ⟨after, reached.trans further⟩

/-- Once everything is counted for the module taken last, the loop comes round. -/
theorem Reached.comesRound {moment : Moment} (reached : graph.Reached moment) :
    graph.ComesRound (moment.releasing.foldl Sweep.release moment.sweep) := by
  induction reached with
  | refl => exact .first
  | tail _ step ih =>
      cases step with
      | pop => exact ih.next
      | release _ => exact ih

/-- What a sweep can be relied on at any moment. -/
structure Tallied (graph : OverrideGraph) (moment : Moment) : Prop where
  /-- A count is the number of overriders that are not taken or not yet counted as taken. -/
  counts : ∀ index < graph.size, moment.sweep.counts[index]? =
    some ((graph.outstanding moment.sweep.taken index).length + moment.releasing.count index)
  /-- No count of zero is ever to be lowered. -/
  positive : ∀ target rest, moment.releasing = target :: rest →
    ∃ count, moment.sweep.counts[target]? = some (count + 1)
  pushed_nodup : moment.pushed.Nodup
  taken_nodup : moment.sweep.taken.Nodup
  length_taken : moment.sweep.taken.length ≤ graph.size
  /-- There is exactly one next step, unless the sweep is over. -/
  advances : moment.Over ∨ ∃ next, graph.Step moment next ∧
    ∀ other, graph.Step moment other → other = next
  /-- Whatever is still to be done, the sweep comes to its end. -/
  finishes : ∃ pushed, ReflTransGen graph.Step moment ⟨graph.finishedSweep, [], pushed⟩

theorem Reached.tallied (consistent : graph.Consistent) {moment : Moment}
    (reached : graph.Reached moment) : graph.Tallied moment := by
  have held := (Moment.Kept.start graph).steps consistent reached
  have distinct := held.pushed_perm.nodup_iff.mp held.pushed_nodup
  have within : moment.sweep.taken ⊆ List.range graph.size := by
    intro index member
    have pushed := held.pushed_perm.mem_iff.mpr (List.mem_append_right _ member)
    have counted := (held.mem_pushed_iff index).mp pushed
    rw [List.mem_range, ← held.length_counts]
    exact (List.getElem?_eq_some_iff.mp counted).1
  have takenDistinct : moment.sweep.taken.Nodup := (List.nodup_append.mp distinct).2.1
  constructor
  case counts => exact held.counts
  case positive =>
    intro target rest releasing
    rcases moment with ⟨sweep, _, pushed⟩
    cases releasing
    exact held.positive
  case pushed_nodup => exact held.pushed_nodup
  case taken_nodup => exact takenDistinct
  case length_taken => simpa using (takenDistinct.subperm within).length_le
  case advances =>
    apply held.advances.imp_right
    intro advance
    rcases advance with ⟨next, step⟩
    exact ⟨next, step, fun other otherStep => otherStep.unique step⟩
  case finishes =>
    rcases held.releases with ⟨between, first⟩
    rcases (held.steps consistent first).runs consistent with ⟨after, further⟩
    rw [reached.comesRound.runSweep_eq] at further
    exact ⟨after, first.trans further⟩

/-- The counts that are left mark the modules that were never taken. -/
theorem positive_iff_not_mem_taken (consistent : graph.Consistent) {index : Nat}
    (bound : index < graph.size) :
    0 < graph.finishedSweep.counts[index]?.getD 0 ↔ index ∉ graph.finishedSweep.taken := by
  have leftOver : index ∈ graph.unresolved graph.finishedSweep.counts ↔
      index < graph.size ∧ index ∉ graph.finishedSweep.taken := mem_unresolved_iff consistent
  simpa [unresolved, bound] using leftOver

/-- A module that was never taken has an overrider that was never taken. -/
theorem exists_untaken_overrider (consistent : graph.Consistent) {index : Nat}
    (bound : index < graph.size) (untaken : index ∉ graph.finishedSweep.taken) :
    ∃ source, graph.Overrides source index ∧ source ∉ graph.finishedSweep.taken := by
  rw [mem_taken_iff consistent] at untaken
  simpa [bound] using untaken

/-- Over any graph that is built, and at any moment, the counts of a sweep are the overriders
not taken, none is lowered below zero, and nothing is put on the stack twice.  The sweep ends,
and the counts that are left mark the modules it never took. -/
theorem sweep_tallied (roster : Roster) :
    let graph := (build roster).value
    (∀ sweep, graph.ComesRound sweep ↔ ∃ pushed, graph.Reached ⟨sweep, [], pushed⟩) ∧
    (∀ moment, graph.Reached moment → graph.Tallied moment) ∧
    graph.ComesRound graph.finishedSweep ∧ graph.finishedSweep.waiting = [] ∧
    ∀ index < graph.size,
      (0 < graph.finishedSweep.counts[index]?.getD 0 ↔ index ∉ graph.finishedSweep.taken) ∧
      (index ∉ graph.finishedSweep.taken →
        ∃ source, graph.Overrides source index ∧ source ∉ graph.finishedSweep.taken) := by
  intro graph
  have consistent : graph.Consistent := consistent_ofRoster roster
  have first : graph.Reached graph.start := .refl
  have rounds : ∀ sweep, graph.ComesRound sweep ↔
      ∃ pushed, graph.Reached ⟨sweep, [], pushed⟩ := by
    intro sweep
    constructor
    · exact fun round => round.exists_reached consistent
    · intro reached
      rcases reached with ⟨pushed, reached⟩
      exact reached.comesRound
  refine ⟨rounds, fun moment reached => reached.tallied consistent, ?_, ?_, ?_⟩
  · exact (rounds graph.finishedSweep).mpr (first.tallied consistent).finishes
  · exact (runSweep_invariant consistent _ (initialSweep_invariant graph)).2
  · intro index bound
    exact ⟨positive_iff_not_mem_taken consistent bound, exists_untaken_overrider consistent bound⟩

end Overlay.OverrideGraph
