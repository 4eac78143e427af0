import Overlay.Assembly
import Overlay.Proofs.Discovery
import Overlay.Proofs.Layers
import Overlay.Proofs.Resolution

/-!
# What an assembly comes to

Where its events go does not influence what an assembly resolves to: its effective modules
are those of the contributions it collects, and its bindings are those of its effective
modules, layer after layer.  Whatever the sink, it is handed the events that a recording
sink would keep.
-/

namespace Overlay.Assembly

theorem value_resolved (assembly : Assembly) (files : FileSystem) :
    (assembly.resolved files).value =
      match (assembly.collected files).value with
      | .error fault => .error fault
      | .ok contributions => (resolve contributions).value := by
  rw [resolved, Journaled.value_bind]
  cases (assembly.collected files).value with
  | error fault => rfl
  | ok contributions => rfl

theorem value_bindings (assembly : Assembly) (files : FileSystem) :
    (assembly.bindings files).value =
      match (assembly.resolved files).value with
      | .error fault => .error fault
      | .ok effective => .ok (configureAll effective) := by
  rw [bindings, Journaled.value_bind]
  cases (assembly.resolved files).value with
  | error fault => rfl
  | ok effective => rfl

/-- An assembly resolves exactly if it collects contributions that resolve. -/
theorem resolved_eq_ok_iff {assembly : Assembly} {files : FileSystem}
    {effective : List EffectiveModule} :
    (assembly.resolved files).value = .ok effective ↔
      ∃ contributions, (assembly.collected files).value = .ok contributions ∧
        (resolve contributions).value = .ok effective := by
  rw [value_resolved]
  cases (assembly.collected files).value with
  | error fault => simp
  | ok contributions => simp

/-! ## Events -/

/-- Nothing is reported before resolution begins. -/
theorem events_collected (assembly : Assembly) (files : FileSystem) :
    (assembly.collected files).events = [] := by
  unfold collected Collector.collected
  dsimp only
  generalize (if assembly.sources.isEmpty then assembly.collector
    else assembly.collector.setDiscovery (.chained assembly.sources)) = collector
  cases collector.discovery with
  | none => rfl
  | some discovery =>
      simp only [Journaled.events_bind, Discovery.events_run, List.nil_append]
      cases (discovery.run files).value with
      | error fault => rfl
      | ok found => rfl

/-- A sink makes of an assembly what it makes of the events that a recording sink keeps. -/
theorem resolved_toSink (assembly : Assembly) (sink : Sink) (files : FileSystem) :
    (assembly.toSink sink).resolved files =
      sink.deliver ((assembly.toSink .recording).resolved files) := by
  have gathered : sink.deliver (assembly.collected files) = assembly.collected files :=
    sink.deliver_of_events_eq_nil (assembly.events_collected files)
  have same : ∀ other, (assembly.toSink other).collected files = assembly.collected files :=
    fun _ => rfl
  have delivered : ∀ contributions, (assembly.toSink sink).resolveCollected contributions =
      sink.deliver ((assembly.toSink .recording).resolveCollected contributions) := by
    intro contributions
    rw [resolveCollected, resolveCollected]
    exact congrArg sink.deliver (Sink.deliver_recording _).symm
  rw [resolved, resolved, same, same, Sink.deliver_bind, gathered]
  congr 1
  funext collected
  cases collected with
  | error fault => rfl
  | ok contributions =>
      simp only [delivered]
      rw [Sink.deliver_bind, Sink.deliver_of_events_eq_nil sink (Journaled.events_log _ _)]

/-- Of what resolution reports, an assembly hands on all but the deprecation alerts that it
is told to leave out. -/
theorem events_resolved_recording (assembly : Assembly) (files : FileSystem)
    {contributions : List Contribution}
    (collected : (assembly.collected files).value = .ok contributions) :
    ((assembly.toSink .recording).resolved files).events =
      (resolve contributions).events.filter fun event =>
        assembly.reportDeprecated || !event.isDeprecation := by
  have same : (assembly.toSink .recording).collected files = assembly.collected files := rfl
  rw [resolved, Journaled.events_bind, same, collected, events_collected, List.nil_append,
    Journaled.events_bind, Journaled.events_log, List.nil_append, resolveCollected]
  simp only [toSink, Sink.deliver_recording, Journaled.events]
  rw [List.filterMap_filter, List.filter_filterMap]
  apply List.filterMap_congr
  intro entry _
  cases entry with
  | event found => rfl
  | log level text => rfl

/-- Effective modules are configured layer after layer. -/
theorem configureAll_eq_foldl (effective : List EffectiveModule) :
    configureAll effective =
      (effective.flatMap fun effect => effect.composition.layers).foldl
        (fun bound layer => layer.2.configure bound) OrderedMap.empty := by
  rw [configureAll, List.foldl_flatMap]
  congr 1
  funext bound effect
  exact effect.composition.configure_eq_foldl bound

end Overlay.Assembly
