import Overlay.Proofs.Declared
import Overlay.Proofs.Graph.CycleFault
import Overlay.Proofs.Graph.SingleOverride
import Overlay.Resolution

/-!
# What resolution decides

The outcome of resolution depends on the retained contributions and their declared
overrides only.  A module with two overriders is refused first, then a cycle; what is
left is one tree for every outermost module.
-/

namespace Overlay

open OverrideGraph

/-- The graph on which contributions are resolved. -/
def resolutionGraph (contributions : List Contribution) : OverrideGraph :=
  ofRoster (Roster.ofContributions contributions).value

/-- The outcome of resolution, events and log lines aside. -/
theorem value_resolve (contributions : List Contribution) :
    (resolve contributions).value =
      match (resolutionGraph contributions).doubleOverride? with
      | some fault => .error (.doubleOverride fault)
      | none =>
          match (resolutionGraph contributions).orderOrCycle with
          | .error fault => .error (.cycle fault)
          | .ok order => .ok ((resolutionGraph contributions).fold order) := by
  simp only [resolve, Journaled.value_bind, value_build, value_checkSingleOverride]
  rw [← resolutionGraph]
  cases (resolutionGraph contributions).doubleOverride? with
  | some fault => rfl
  | none =>
      simp only [Journaled.value_bind, value_loadOrder]
      cases (resolutionGraph contributions).orderOrCycle with
      | error fault => rfl
      | ok order => rfl

/-- The outcome depends on the retained contributions only. -/
theorem value_resolve_of_retained {first second : List Contribution}
    (same : retained first = retained second) : (resolve first).value = (resolve second).value := by
  have rosters : (Roster.ofContributions first).value = (Roster.ofContributions second).value := by
    apply OrderedSet.eq_of_elements
    rw [Roster.elements_ofContributions, Roster.elements_ofContributions, same]
  rw [value_resolve, value_resolve, resolutionGraph, resolutionGraph, rosters]

theorem resolutionGraph_consistent (contributions : List Contribution) :
    (resolutionGraph contributions).Consistent :=
  consistent_ofRoster _

/-- Resolution succeeds on a graph without double overrides and cycles, and then folds it in
load order. -/
theorem resolve_eq_ok_iff {contributions : List Contribution}
    {effective : List EffectiveModule} :
    (resolve contributions).value = .ok effective ↔
      (resolutionGraph contributions).SinglyOverridden ∧
        ¬ (resolutionGraph contributions).Cyclic ∧
        (resolutionGraph contributions).fold
          (resolutionGraph contributions).finishedSweep.taken = effective := by
  have consistent := resolutionGraph_consistent contributions
  rw [value_resolve, ← doubleOverride?_eq_none_iff consistent]
  cases (resolutionGraph contributions).doubleOverride? with
  | some fault => simp
  | none =>
      by_cases cyclic : (resolutionGraph contributions).Cyclic
      · simp [orderOrCycle_of_cyclic consistent cyclic, cyclic]
      · simp [orderOrCycle_of_not_cyclic consistent cyclic, cyclic]

/-- Resolution reports a cycle on a graph with cycles, but without double overrides. -/
theorem resolve_eq_cycle_iff {contributions : List Contribution} {fault : OverrideCycle} :
    (resolve contributions).value = .error (.cycle fault) ↔
      (resolutionGraph contributions).SinglyOverridden ∧
        (resolutionGraph contributions).Cyclic ∧
        (resolutionGraph contributions).cycleFault
          (resolutionGraph contributions).finishedSweep.counts = fault := by
  have consistent := resolutionGraph_consistent contributions
  rw [value_resolve, ← doubleOverride?_eq_none_iff consistent]
  cases (resolutionGraph contributions).doubleOverride? with
  | some fault => simp
  | none =>
      by_cases cyclic : (resolutionGraph contributions).Cyclic
      · simp [orderOrCycle_of_cyclic consistent cyclic, cyclic]
      · simp [orderOrCycle_of_not_cyclic consistent cyclic, cyclic]

theorem doubleOverride?_resolutionGraph (contributions : List Contribution) :
    (resolutionGraph contributions).doubleOverride? = none ↔
      Declared.SinglyOverridden (retained contributions) :=
  (doubleOverride?_eq_none_iff (resolutionGraph_consistent contributions)).trans
    (Declared.singlyOverridden_iff (Roster.elements_ofContributions contributions))

section Outcomes

variable {contributions modules : List Contribution} (kept : retained contributions = modules)
include kept

/-- A module with two overriders is refused, whatever else there is. -/
theorem resolve_of_not_singlyOverridden (double : ¬ Declared.SinglyOverridden modules) :
    ∃ fault, (resolve contributions).value = .error (.doubleOverride fault) := by
  subst kept
  rw [value_resolve]
  cases found : (resolutionGraph contributions).doubleOverride? with
  | none => exact (double ((doubleOverride?_resolutionGraph contributions).mp found)).elim
  | some fault => exact ⟨fault, rfl⟩

open Classical in
/-- Without double overrides a cycle is refused; the fault names what lies on or below a
cycle, in order of first contribution. -/
theorem resolve_of_cyclic (single : Declared.SinglyOverridden modules)
    (cyclic : Declared.Cyclic modules) :
    ∃ fault, (resolve contributions).value = .error (.cycle fault) ∧
      fault.unresolved = (modules.filter fun module =>
        Declared.BelowCycle modules module).map Contribution.moduleName := by
  subst kept
  have listed := Roster.elements_ofContributions contributions
  have consistent := resolutionGraph_consistent contributions
  have graphCyclic := (Declared.cyclic_iff listed).mpr cyclic
  have graphSingle := (Declared.singlyOverridden_iff listed).mpr single
  let graph := resolutionGraph contributions
  refine ⟨graph.cycleFault graph.finishedSweep.counts,
    resolve_eq_cycle_iff.mpr ⟨graphSingle, graphCyclic, rfl⟩, ?_⟩
  have names : (graph.cycleFault graph.finishedSweep.counts).unresolved =
      (graph.unresolved graph.finishedSweep.counts).map graph.name := rfl
  rw [names, ← Declared.map_pick_unresolved listed, List.map_map]
  apply List.map_congr_left
  intro index member
  have bound := ((mem_unresolved_iff consistent).mp member).1
  exact Declared.name_eq listed (Declared.size_eq listed ▸ bound)

/-- Without double overrides and cycles every outermost module takes effect on top of
everything below it. -/
theorem resolve_of_not_cyclic (single : Declared.SinglyOverridden modules)
    (acyclic : ¬ Declared.Cyclic modules) :
    ∃ effective, (resolve contributions).value = .ok effective ∧
      List.Forall₂ (FoldsTo Descriptor.ofContribution (Declared.bases modules))
        (Declared.outermost modules) effective := by
  subst kept
  have listed := Roster.elements_ofContributions contributions
  have consistent := resolutionGraph_consistent contributions
  have graphAcyclic := (not_congr (Declared.cyclic_iff listed)).mpr acyclic
  have loadOrder := isLoadOrder_taken consistent graphAcyclic
  have folded := Declared.fold_foldsTo listed single
    (basesFirst_of_perm loadOrder.perm loadOrder.overridden_first)
  have graphSingle := (Declared.singlyOverridden_iff listed).mpr single
  have inOrder := congrArg (List.map (Declared.pick (retained contributions)))
    loadOrder.outermost_in_order
  refine ⟨_, resolve_eq_ok_iff.mpr ⟨graphSingle, graphAcyclic, rfl⟩, ?_⟩
  rw [← (inOrder.trans (Declared.map_pick_outermost listed))]
  exact folded

end Outcomes

/-- Contributions that resolve have neither double overrides nor cycles, and the outermost
of those retained take effect on top of everything below them. -/
theorem folds_of_resolved {contributions : List Contribution} {effective : List EffectiveModule}
    (resolved : (resolve contributions).value = .ok effective) :
    Declared.SinglyOverridden (retained contributions) ∧
      ¬ Declared.Cyclic (retained contributions) ∧
      List.Forall₂ (FoldsTo Descriptor.ofContribution (Declared.bases (retained contributions)))
        (Declared.outermost (retained contributions)) effective := by
  have listed := Roster.elements_ofContributions contributions
  have accepted := resolve_eq_ok_iff.mp resolved
  have single := (Declared.singlyOverridden_iff listed).mp accepted.1
  have acyclic := (not_congr (Declared.cyclic_iff listed)).mp accepted.2.1
  obtain ⟨found, sameValue, folded⟩ := resolve_of_not_cyclic rfl single acyclic
  cases Except.ok.inj (resolved.symm.trans sameValue)
  exact ⟨single, acyclic, folded⟩

theorem exists_resolved_iff (contributions : List Contribution) :
    (∃ effective, (resolve contributions).value = .ok effective) ↔
      Declared.SinglyOverridden (retained contributions) ∧
        ¬ Declared.Cyclic (retained contributions) := by
  constructor
  · intro resolves
    obtain ⟨effective, resolved⟩ := resolves
    have folds := folds_of_resolved resolved
    exact ⟨folds.1, folds.2.1⟩
  · intro accepted
    obtain ⟨effective, resolved, _⟩ := resolve_of_not_cyclic rfl accepted.1 accepted.2
    exact ⟨effective, resolved⟩

/-- Where nothing is contributed, nothing takes effect. -/
theorem value_resolve_nil : (resolve []).value = .ok [] := by
  have single : Declared.SinglyOverridden [] := fun first _ _ edge =>
    (List.not_mem_nil edge.1).elim
  have acyclic : ¬ Declared.Cyclic [] := by
    rintro ⟨module, path⟩
    obtain ⟨_, edge, _⟩ := Relation.TransGen.head'_iff.mp path
    exact List.not_mem_nil edge.1
  obtain ⟨effective, resolved⟩ := (exists_resolved_iff []).mpr ⟨single, acyclic⟩
  have folds := (folds_of_resolved resolved).2.2
  rw [resolved, List.forall₂_nil_left_iff.mp folds]

theorem exists_doubleOverride_iff (contributions : List Contribution) :
    (∃ fault, (resolve contributions).value = .error (.doubleOverride fault)) ↔
      ¬ Declared.SinglyOverridden (retained contributions) := by
  constructor
  · intro refuses single
    obtain ⟨fault, refused⟩ := refuses
    rw [value_resolve, (doubleOverride?_resolutionGraph contributions).mpr single] at refused
    cases order : (resolutionGraph contributions).orderOrCycle with
    | error cycle => simp [order] at refused
    | ok found => simp [order] at refused
  · exact fun double => resolve_of_not_singlyOverridden rfl double

/-- Resolution succeeds exactly when no retained module has two overriders and none
overrides itself, and then the outermost modules take effect, each once and in order of
first contribution. -/
theorem resolve_complete_and_sound (contributions : List Contribution) :
    ((∃ effective, (resolve contributions).value = .ok effective) ↔
      Declared.SinglyOverridden (retained contributions) ∧
        ¬ Declared.Cyclic (retained contributions)) ∧
    ∀ effective, (resolve contributions).value = .ok effective →
      List.Forall₂ (Declared.TakesEffect (retained contributions))
        (Declared.outermost (retained contributions)) effective := by
  by_cases single : Declared.SinglyOverridden (retained contributions)
  case neg =>
    rcases resolve_of_not_singlyOverridden rfl single with ⟨fault, refused⟩
    simp [refused, single]
  by_cases cyclic : Declared.Cyclic (retained contributions)
  case pos =>
    rcases resolve_of_cyclic rfl single cyclic with ⟨fault, refused, _⟩
    simp [refused, cyclic]
  rcases resolve_of_not_cyclic rfl single cyclic with ⟨effective, resolved, folded⟩
  rw [resolved]
  constructor
  · exact ⟨fun _ => ⟨single, cyclic⟩, fun _ => ⟨effective, rfl⟩⟩
  · intro found same
    cases same
    exact folded.imp fun module effect => Declared.takesEffect_of_foldsTo

end Overlay
