import Overlay.Proofs.Assembly
import Overlay.Proofs.Contested
import Overlay.Proofs.Sources

/-!
# What goes wrong first

A source may fail, two modules may override the same one, and modules may override each other
in a circle, all in one assembly.  The first source that fails is reported before anything is
looked at, and then it makes no difference what the assembly holds besides; a contested module
is reported before a cycle.
-/

namespace Overlay

open Declared OverrideGraph

namespace Declared

/-- The outcomes that retained modules can have. -/
inductive Judged (modules : List Contribution) :
    Except Fault (List EffectiveModule) → Prop where
  /-- The first contested module is reported, whether or not there is a cycle. -/
  | doubleOverride {target : Contribution} {fault : DoubleOverride}
      (contest : FirstContest modules target fault) :
      Judged modules (.error (.doubleOverride fault))
  | cycle {fault : OverrideCycle} (uncontested : ∀ target ∈ modules, ¬ Contested modules target)
      (cyclic : Cyclic modules) : Judged modules (.error (.cycle fault))
  | resolved {effective : List EffectiveModule}
      (uncontested : ∀ target ∈ modules, ¬ Contested modules target)
      (acyclic : ¬ Cyclic modules) : Judged modules (.ok effective)

/-- A list on which no module is contested is one without double overrides. -/
theorem uncontested_iff (contributions : List Contribution) :
    (∀ target ∈ retained contributions, ¬ Contested (retained contributions) target) ↔
      SinglyOverridden (retained contributions) := by
  have reported : (resolutionGraph contributions).doubleOverride? =
      firstReport? (retained contributions) :=
    doubleOverride?_ofRoster (Roster.elements_ofContributions contributions)
  rw [← firstReport?_eq_none_iff, ← reported, doubleOverride?_resolutionGraph]

end Declared

theorem judged_resolve (contributions : List Contribution) :
    Judged (retained contributions) (resolve contributions).value := by
  by_cases uncontested :
      ∀ target ∈ retained contributions, ¬ Contested (retained contributions) target
  · have single := (uncontested_iff contributions).mp uncontested
    by_cases cyclic : Cyclic (retained contributions)
    · obtain ⟨fault, refused, _⟩ := resolve_of_cyclic rfl single cyclic
      rw [refused]
      exact .cycle uncontested cyclic
    · obtain ⟨effective, resolved, _⟩ := resolve_of_not_cyclic rfl single cyclic
      rw [resolved]
      exact .resolved uncontested cyclic
  · have reported : (resolutionGraph contributions).doubleOverride? =
        firstReport? (retained contributions) :=
      doubleOverride?_ofRoster (Roster.elements_ofContributions contributions)
    rw [← firstReport?_eq_none_iff] at uncontested
    obtain ⟨fault, found⟩ := Option.ne_none_iff_exists'.mp uncontested
    obtain ⟨target, contest⟩ :=
      (firstReport?_eq_some_iff (retained_nodup contributions)).mp found
    rw [value_resolve, reported, found]
    exact .doubleOverride contest

namespace Assembly

/-- The source that an assembly asks: a chain of its own sources, or without them the source
that its collector names. -/
def source? (assembly : Assembly) : Option Discovery :=
  if assembly.sources.isEmpty then assembly.collector.discovery
  else some (.chained assembly.sources)

/-- The sources that an assembly asks, chains opened, from left to right. -/
def leaves (assembly : Assembly) : List Discovery :=
  Discovery.leavesOfAll assembly.source?.toList

variable {assembly : Assembly} {files : FileSystem}

theorem collected_eq (assembly : Assembly) (files : FileSystem) :
    assembly.collected files =
      (match assembly.source? with
      | none => pure (.ok (collect assembly.collector.explicit.contributions
          assembly.collector.overriding []))
      | some source => do
          match ← Discovery.run files source with
          | .error fault => pure (.error (.discovery fault))
          | .ok found => do
              Journaled.log .debug s!"Auto-discovery found {found.length} modules"
              pure (.ok (collect assembly.collector.explicit.contributions
                assembly.collector.overriding found))) := by
  rw [collected, source?]
  split
  · rfl
  · rfl

/-- What an assembly has collected when its sources have been asked. -/
theorem value_collected (assembly : Assembly) (files : FileSystem) :
    (assembly.collected files).value =
      match (Discovery.runAll files assembly.leaves).value with
      | .error fault => .error (.discovery fault)
      | .ok found => .ok (collect assembly.collector.explicit.contributions
          assembly.collector.overriding found) := by
  rw [collected_eq, leaves, ← Discovery.runAll_eq_runAll_leavesOfAll]
  cases assembly.source? with
  | none => rfl
  | some source =>
      rw [Option.toList_some, Discovery.runAll_singleton, Journaled.value_bind]
      cases (Discovery.run files source).value with
      | error fault => rfl
      | ok found => rfl

/-- If a source fails, only what the sources have written is left. -/
theorem collected_of_error {fault : DiscoveryFault} {journal : List Entry}
    (failed : Discovery.runAll files assembly.leaves = ⟨.error fault, journal⟩) :
    assembly.collected files = ⟨.error (.discovery fault), journal⟩ := by
  rw [leaves, ← Discovery.runAll_eq_runAll_leavesOfAll] at failed
  rw [collected_eq]
  cases found : assembly.source? with
  | none =>
      rw [found] at failed
      cases failed
  | some source =>
      rw [found, Option.toList_some, Discovery.runAll_singleton] at failed
      dsimp only
      rw [failed]
      exact congrArg (Journaled.mk _) (List.append_nil journal)

theorem resolved_of_error {fault : DiscoveryFault} {journal : List Entry}
    (failed : Discovery.runAll files assembly.leaves = ⟨.error fault, journal⟩) :
    assembly.resolved files = ⟨.error (.discovery fault), journal⟩ := by
  rw [resolved, collected_of_error failed]
  exact congrArg (Journaled.mk _) (List.append_nil journal)

/-- The bindings of an assembly are missing for the same reason as its effective modules. -/
theorem bindings_eq_error_iff {fault : Fault} :
    (assembly.bindings files).value = .error fault ↔
      (assembly.resolved files).value = .error fault := by
  rw [value_bindings]
  cases (assembly.resolved files).value with
  | error other => simp only [Except.error.injEq]
  | ok effective => simp only [reduceCtorEq]

end Assembly

/-- How the outcome of an assembly is decided. -/
structure DecidedInOrder (assembly : Assembly) (files : FileSystem) : Prop where
  /-- If any source fails, one of them is the first to fail. -/
  first_failure : ∀ source ∈ assembly.leaves, ∀ fault,
    (Discovery.run files source).value = .error fault →
      ∃ asked first, asked <+: assembly.leaves ∧ Discovery.FailsLast files asked first
  /-- What the first source to fail says is the outcome, and all that is written is what the
  sources up to it write: the sink is told nothing. -/
  undiscovered : ∀ asked fault, asked <+: assembly.leaves →
    Discovery.FailsLast files asked fault →
      assembly.resolved files = ⟨.error (.discovery fault),
        asked.flatMap fun source => (Discovery.run files source).journal⟩ ∧
      ((assembly.toSink .recording).resolved files).events = []
  /-- Whatever else an assembly asks, holds or tells to whom makes no difference then. -/
  independent : ∀ asked fault, asked <+: assembly.leaves →
    Discovery.FailsLast files asked fault → ∀ other : Assembly, asked <+: other.leaves →
      other.resolved files = assembly.resolved files
  /-- If all sources answer, what they find is collected in their order and judged together
  with what is registered. -/
  discovered : ∀ outputs, List.Forall₂ (Discovery.Finds files) assembly.leaves outputs →
    ∃ contributions, (assembly.collected files).value = .ok contributions ∧
      contributions = collect assembly.collector.explicit.contributions
        assembly.collector.overriding outputs.flatten ∧
      Judged (retained contributions) (assembly.resolved files).value
  /-- Bindings are refused exactly when and why effective modules are. -/
  bindings : ∀ fault, (assembly.bindings files).value = .error fault ↔
    (assembly.resolved files).value = .error fault

/-- A source that fails comes before a contested module, and this before a cycle; what comes
first is the whole outcome. -/
theorem resolved_decidedInOrder (assembly : Assembly) (files : FileSystem) :
    DecidedInOrder assembly files := by
  have decided : ∀ {asked fault} (other : Assembly), asked <+: other.leaves →
      Discovery.FailsLast files asked fault →
        other.resolved files = ⟨.error (.discovery fault),
          asked.flatMap fun source => (Discovery.run files source).journal⟩ :=
    fun other within fails =>
      Assembly.resolved_of_error (Discovery.runAll_of_failsLast fails within)
  constructor
  case first_failure =>
    exact fun source member fault failed => Discovery.exists_failsLast member failed
  case undiscovered =>
    intro asked fault within fails
    refine ⟨decided assembly within fails, ?_⟩
    have refused := decided (assembly.toSink .recording) within fails
    rw [refused]
    simp only [Journaled.events, List.filterMap_flatMap]
    exact List.flatMap_eq_nil_iff.mpr fun source _ => Discovery.events_run files source
  case independent =>
    intro asked fault within fails other alsoWithin
    rw [decided assembly within fails, decided other alsoWithin fails]
  case discovered =>
    intro outputs finds
    have collected := Assembly.value_collected assembly files
    rw [Discovery.runAll_of_finds finds] at collected
    refine ⟨_, collected, rfl, ?_⟩
    rw [Assembly.value_resolved, collected]
    exact judged_resolve _
  case bindings => exact fun fault => Assembly.bindings_eq_error_iff

/-- A chain inside a chain fails in front of a source that fails as well, and the modules
registered override each other. -/
example :
    let assembly := [Contribution.plain "left" ["right"], .plain "right" ["left"]].foldl
      Assembly.contribute .empty
    let nested := Discovery.chained [.fixed (.ok []), .fixed (.error (.other "nested"))]
    let last := Discovery.fixed (.error (.other "last"))
    (((assembly.discover nested).discover last).resolved default).value =
      .error (.discovery (.other "nested")) := rfl

end Overlay
