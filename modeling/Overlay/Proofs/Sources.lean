import Mathlib.Data.List.Forall2
import Overlay.Proofs.Discovery

/-!
# Sources and the chains that hold them

A chain of sources may hold further chains.  However it is nested, asking it is asking its
leaves from left to right.  If all of them answer, what is found is what each of them finds,
one leaf after the other; otherwise the first leaf that fails decides, and those behind it
are not asked.
-/

namespace Overlay.Discovery

mutual

/-- The sources that make up a source: a chain stands for what its own sources stand for. -/
def leaves : Discovery → List Discovery
  | .fixed answer => [.fixed answer]
  | .registered registrations => [.registered registrations]
  | .directory path => [.directory path]
  | .chained sources => leavesOfAll sources

/-- The sources that make up several sources, from left to right. -/
def leavesOfAll : List Discovery → List Discovery
  | [] => []
  | source :: rest => leaves source ++ leavesOfAll rest

end

/-- The source finds these contributions. -/
def Finds (files : FileSystem) (source : Discovery) (found : List Contribution) : Prop :=
  (run files source).value = .ok found

/-- Of the sources, asked in order, all but the last answer, and the last one fails. -/
def FailsLast (files : FileSystem) (asked : List Discovery) (fault : DiscoveryFault) : Prop :=
  ∃ before failing, asked = before ++ [failing] ∧
    (∀ source ∈ before, ∃ found, Finds files source found) ∧
    (run files failing).value = .error fault

/-! ## Joining answers -/

/-- What asking a source comes to. -/
abbrev Answer := Journaled (Except DiscoveryFault (List Contribution))

/-- Two answers as one; after a failure the second is not sought. -/
def joined (first second : Answer) : Answer :=
  match first.value with
  | .error fault => ⟨.error fault, first.journal⟩
  | .ok found => ⟨second.value.map (found ++ ·), first.journal ++ second.journal⟩

theorem joined_nothing (answer : Answer) : joined answer ⟨.ok [], []⟩ = answer := by
  obtain ⟨value, journal⟩ := answer
  cases value with
  | error fault => rfl
  | ok found => simp only [joined, Except.map, List.append_nil]

theorem nothing_joined (answer : Answer) : joined ⟨.ok [], []⟩ answer = answer := by
  obtain ⟨value, journal⟩ := answer
  cases value with
  | error fault => rfl
  | ok found => rfl

theorem joined_assoc (first second third : Answer) :
    joined (joined first second) third = joined first (joined second third) := by
  obtain ⟨firstValue, firstJournal⟩ := first
  obtain ⟨secondValue, secondJournal⟩ := second
  obtain ⟨thirdValue, thirdJournal⟩ := third
  cases firstValue with
  | error fault => rfl
  | ok found =>
      cases secondValue with
      | error fault => rfl
      | ok others =>
          cases thirdValue with
          | error fault => simp only [joined, Except.map, List.append_assoc]
          | ok rest => simp only [joined, Except.map, List.append_assoc]

/-! ## Chains -/

theorem runAll_nil (files : FileSystem) : runAll files [] = ⟨.ok [], []⟩ := rfl

theorem runAll_cons (files : FileSystem) (source : Discovery) (rest : List Discovery) :
    runAll files (source :: rest) = joined (run files source) (runAll files rest) := by
  rw [runAll]
  generalize run files source = first
  generalize runAll files rest = second
  obtain ⟨firstValue, firstJournal⟩ := first
  obtain ⟨secondValue, secondJournal⟩ := second
  cases firstValue with
  | error fault => exact congrArg (Journaled.mk _) (List.append_nil firstJournal)
  | ok found =>
      have unlogged := congrArg (firstJournal ++ ·) (List.append_nil secondJournal)
      cases secondValue with
      | error fault => exact congrArg (Journaled.mk _) unlogged
      | ok others => exact congrArg (Journaled.mk _) unlogged

theorem runAll_append (files : FileSystem) (first second : List Discovery) :
    runAll files (first ++ second) = joined (runAll files first) (runAll files second) := by
  induction first with
  | nil => rw [List.nil_append, runAll_nil, nothing_joined]
  | cons source rest ih => rw [List.cons_append, runAll_cons, runAll_cons, ih, joined_assoc]

theorem runAll_singleton (files : FileSystem) (source : Discovery) :
    runAll files [source] = run files source := by
  rw [runAll_cons, runAll_nil, joined_nothing]

mutual

/-- Asking a source is asking its leaves. -/
theorem run_eq_runAll_leaves (files : FileSystem) (source : Discovery) :
    run files source = runAll files source.leaves := by
  match source with
  | .fixed answer => exact (runAll_singleton files _).symm
  | .registered registrations => exact (runAll_singleton files _).symm
  | .directory path => exact (runAll_singleton files _).symm
  | .chained sources => rw [run, leaves, runAll_eq_runAll_leavesOfAll files sources]

theorem runAll_eq_runAll_leavesOfAll (files : FileSystem) (sources : List Discovery) :
    runAll files sources = runAll files (leavesOfAll sources) := by
  match sources with
  | [] => rfl
  | source :: rest =>
      rw [runAll_cons, leavesOfAll, runAll_append, run_eq_runAll_leaves files source,
        runAll_eq_runAll_leavesOfAll files rest]

end

/-- What sources find that all answer, one source after the other. -/
theorem runAll_of_finds {files : FileSystem} {sources : List Discovery}
    {outputs : List (List Contribution)} (finds : List.Forall₂ (Finds files) sources outputs) :
    runAll files sources =
      ⟨.ok outputs.flatten, sources.flatMap fun source => (run files source).journal⟩ := by
  induction finds with
  | nil => rfl
  | cons head _ ih => rw [runAll_cons, ih, joined, head]; rfl

theorem exists_outputs {files : FileSystem} {sources : List Discovery}
    (answer : ∀ source ∈ sources, ∃ found, Finds files source found) :
    ∃ outputs, List.Forall₂ (Finds files) sources outputs := by
  induction sources with
  | nil => exact ⟨[], .nil⟩
  | cons source rest ih =>
      rw [List.forall_mem_cons] at answer
      obtain ⟨output, found⟩ := answer.1
      obtain ⟨outputs, others⟩ := ih answer.2
      exact ⟨output :: outputs, .cons found others⟩

/-- Sources are asked up to the first that fails; what it says is the answer. -/
theorem runAll_of_failsLast {files : FileSystem} {sources asked : List Discovery}
    {fault : DiscoveryFault} (fails : FailsLast files asked fault) (within : asked <+: sources) :
    runAll files sources =
      ⟨.error fault, asked.flatMap fun source => (run files source).journal⟩ := by
  obtain ⟨before, failing, rfl, answer, failed⟩ := fails
  obtain ⟨after, rfl⟩ := within
  obtain ⟨outputs, finds⟩ := exists_outputs answer
  rw [runAll_append, runAll_append, runAll_of_finds finds, runAll_singleton, joined, joined,
    failed, List.flatMap_append, List.flatMap_singleton]
  rfl

/-- If one of several sources fails, there is a first one that does. -/
theorem exists_failsLast {files : FileSystem} {sources : List Discovery} {source : Discovery}
    {fault : DiscoveryFault} (member : source ∈ sources)
    (failed : (run files source).value = .error fault) :
    ∃ asked first, asked <+: sources ∧ FailsLast files asked first := by
  induction sources with
  | nil => exact (List.not_mem_nil member).elim
  | cons head rest ih =>
      cases outcome : (run files head).value with
      | error first =>
          exact ⟨[head], first, List.prefix_append [head] rest, [], head, rfl,
            fun _ none => (List.not_mem_nil none).elim, outcome⟩
      | ok found =>
          have later : source ∈ rest := by
            rcases List.mem_cons.mp member with same | later
            · rw [← same, failed] at outcome
              cases outcome
            · exact later
          obtain ⟨asked, first, within, before, failing, rfl, answer, failsFirst⟩ := ih later
          refine ⟨head :: (before ++ [failing]), first, List.cons_prefix_cons.mpr ⟨rfl, within⟩,
            head :: before, failing, rfl, ?_, failsFirst⟩
          exact List.forall_mem_cons.mpr ⟨⟨found, outcome⟩, answer⟩

end Overlay.Discovery
