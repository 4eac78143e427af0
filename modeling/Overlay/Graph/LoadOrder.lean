import Overlay.Fault
import Overlay.OverrideGraph

/-!
# Load order

Overridden modules load before the modules that override them.  The order is
found from the other end: a sweep takes modules that no module waiting to be
taken overrides, most recently released first, and lists each one in front of
those taken before it.  A graph that the sweep cannot exhaust has a cycle, and a
walk from overridden module to overrider, among the modules left over, finds one.
-/

namespace Overlay.OverrideGraph

/-- A sweep in progress. -/
structure Sweep where
  /-- Released modules, the most recent first. -/
  waiting : List Nat
  /-- For each module, how many of its overriders have not been taken. -/
  counts : List Nat
  /-- The modules taken, the most recent first. -/
  taken : List Nat
  deriving DecidableEq, Inhabited

namespace Sweep

/-- All counts together. -/
def total : List Nat → Nat
  | [] => 0
  | count :: rest => count + total rest

/-- What is left to do: every step makes it smaller. -/
def remaining (sweep : Sweep) : Nat := sweep.waiting.length + total sweep.counts

/-- Counts one overrider of a module as taken and releases the module when it was
the last. -/
def release (sweep : Sweep) (index : Nat) : Sweep :=
  match sweep.counts[index]? with
  | some (count + 1) =>
      { sweep with
        counts := sweep.counts.set index count
        waiting := if count = 0 then index :: sweep.waiting else sweep.waiting }
  | _ => sweep

/-- Lowering one count by one lowers the total by one. -/
theorem total_set (counts : List Nat) (index count : Nat)
    (found : counts[index]? = some (count + 1)) :
    total (counts.set index count) + 1 = total counts := by
  induction counts generalizing index with
  | nil => simp at found
  | cons head rest ih =>
      cases index with
      | zero =>
          simp only [List.getElem?_cons_zero, Option.some.injEq] at found
          subst found
          simp only [List.set_cons_zero, total]
          omega
      | succ index =>
          simp only [List.getElem?_cons_succ] at found
          have smaller := ih index found
          simp only [List.set_cons_succ, total]
          omega

theorem remaining_release_le (sweep : Sweep) (index : Nat) :
    (sweep.release index).remaining ≤ sweep.remaining := by
  unfold release
  split
  · next count found =>
      have lowered := total_set sweep.counts index count found
      simp only [remaining]
      split
      · simp only [List.length_cons]
        omega
      · omega
  · exact Nat.le_refl _

theorem remaining_releases_le (indices : List Nat) (sweep : Sweep) :
    (indices.foldl release sweep).remaining ≤ sweep.remaining := by
  induction indices generalizing sweep with
  | nil => exact Nat.le_refl _
  | cons index rest ih =>
      exact Nat.le_trans (ih (sweep.release index)) (remaining_release_le sweep index)

end Sweep

/-- Takes a module and releases what it overrides. -/
def take (graph : OverrideGraph) (index : Nat) (sweep : Sweep) : Sweep :=
  (graph.successors index).foldl Sweep.release
    { sweep with taken := index :: sweep.taken }

/-- Goes on until no module is waiting. -/
def runSweep (graph : OverrideGraph) : Sweep → Sweep
  | ⟨[], counts, taken⟩ => ⟨[], counts, taken⟩
  | ⟨index :: rest, counts, taken⟩ => runSweep graph (graph.take index ⟨rest, counts, taken⟩)
termination_by sweep => sweep.remaining
decreasing_by
  refine Nat.lt_of_le_of_lt (Sweep.remaining_releases_le _ _) ?_
  simp only [Sweep.remaining, List.length_cons]
  omega

/-- The sweep before its first step: the modules that none overrides are waiting,
the last of them on top. -/
def initialSweep (graph : OverrideGraph) : Sweep where
  waiting := ((List.range graph.size).filter fun index =>
    (graph.incoming index).length = 0).reverse
  counts := (List.range graph.size).map fun index => (graph.incoming index).length
  taken := []

/-- The sweep when it has come to its end. -/
def finishedSweep (graph : OverrideGraph) : Sweep := graph.runSweep graph.initialSweep

/-- The modules that the sweep left over, in roster order. -/
def unresolved (graph : OverrideGraph) (counts : List Nat) : List Nat :=
  (List.range graph.size).filter fun index => 0 < counts[index]?.getD 0

/-- Walks from a module to its first overrider that is left over, and on, until a
module comes up again.  `left` holds the modules not visited yet and `walked` the
modules visited, the most recent first.  The answer is the circle, from the
module that came up again backwards against the walk. -/
def circleFrom (graph : OverrideGraph) (counts : List Nat) (left walked : List Nat)
    (current : Nat) : List Nat :=
  if member : current ∈ left then
    match (graph.incoming current).find? fun source => 0 < counts[source]?.getD 0 with
    | some overrider =>
        circleFrom graph counts (left.erase current) (current :: walked) overrider
    | none => current :: walked
  else
    walked.take ((walked.idxOf current) + 1)
termination_by left.length
decreasing_by
  rw [List.length_erase_of_mem member]
  have := List.length_pos_of_mem member
  omega

/-- Turns a circle so that its smallest member comes first. -/
def fromSmallest (circle : List Nat) : List Nat :=
  match circle.min? with
  | some smallest =>
      let start := circle.idxOf smallest
      circle.drop start ++ circle.take start
  | none => []

/-- The cycle that the left over modules hold. -/
def cycleFault (graph : OverrideGraph) (counts : List Nat) : OverrideCycle :=
  let unresolved := graph.unresolved counts
  let circle :=
    match unresolved with
    | [] => []
    | first :: _ => fromSmallest (graph.circleFrom counts unresolved [] first)
  { path := (circle ++ circle.take 1).map graph.name
    unresolved := unresolved.map graph.name }

/-- The load order, or a cycle that makes one impossible. -/
def orderOrCycle (graph : OverrideGraph) : Except OverrideCycle (List Nat) :=
  let sweep := graph.finishedSweep
  if sweep.taken.length = graph.size then .ok sweep.taken
  else .error (graph.cycleFault sweep.counts)

/-- The load order, told to the log when there is one. -/
def loadOrder (graph : OverrideGraph) : Journaled (Except OverrideCycle (List Nat)) :=
  match graph.orderOrCycle with
  | .ok order => do
      Journaled.log .debug ("Override load order: " ++ Text.quotedList (order.map graph.name))
      pure (.ok order)
  | .error fault => pure (.error fault)

end Overlay.OverrideGraph
