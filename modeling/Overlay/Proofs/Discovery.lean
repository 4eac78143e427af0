import Overlay.Discovery
import Overlay.Proofs.Conversion
import Overlay.Proofs.Journal

/-!
# Discovery is not told as events

Sources write to the log while they are asked, but report no event.  The first event of an
assembly therefore belongs to the resolution of what has been gathered.
-/

namespace Overlay

theorem Manifest.events_check (manifest : Manifest) : manifest.check.events = [] := by
  unfold check verdict
  cases manifest.problems with
  | nil => rfl
  | cons problem others => rfl

namespace Discovery

theorem events_acceptManifest (path : String) (node : FileTree) :
    (acceptManifest path node).events = [] := by
  unfold acceptManifest
  cases readManifest node with
  | error fault => rfl
  | ok manifest =>
      simp only [Journaled.events_bind, Manifest.events_check, List.nil_append]
      cases manifest.check.value with
      | nil => rfl
      | cons problem others => rfl

theorem events_scan (directory : String) (entries : FileTree.Entries) :
    (scan directory entries).events = [] := by
  induction entries with
  | nil => rfl
  | cons entry rest ih =>
      obtain ⟨name, node⟩ := entry
      cases node with
      | file content => exact ih
      | folder inner =>
          unfold scan
          dsimp only
          split
          · exact ih
          · cases manifestIn? (join directory name) inner with
            | none => exact ih
            | some node =>
                simp only [Journaled.events_bind, events_acceptManifest, List.nil_append]
                cases (acceptManifest (join (join directory name) manifestFile) node).value with
                | error fault => rfl
                | ok found =>
                    simp only [Journaled.events_bind, ih, List.nil_append]
                    cases (scan directory rest).value with
                    | error fault => rfl
                    | ok others => rfl

theorem events_manifests (files : FileSystem) (directory : String) :
    (manifests files directory).events = [] := by
  simp only [manifests, Journaled.events_bind, Journaled.events_log, List.nil_append]
  split
  · cases files.list directory with
    | error fault => rfl
    | ok entries =>
        simp only [Journaled.events_bind, events_scan, List.nil_append]
        cases (scan directory (byName entries)).value with
        | error fault => rfl
        | ok found => rfl
  · rfl

/-- Whatever manifests are found, each is contributed. -/
theorem fromDirectory_eq (files : FileSystem) (directory : String) :
    fromDirectory files directory = (do
      match ← manifests files directory with
      | .error fault => pure (.error fault)
      | .ok found =>
          pure (.ok (found.map fun each =>
            each.manifest.toContribution.orProvider (directoryProvider directory)))) := by
  have each : contributionOf directory = fun found =>
      pure (found.manifest.toContribution.orProvider (directoryProvider directory)) := by
    funext found
    rw [contributionOf, Manifest.contribute_eq]
    rfl
  rw [fromDirectory, each]
  simp only [List.mapM_pure]
  rfl

/-- A directory contributes what is found in it, and fails as the search does. -/
theorem value_fromDirectory (files : FileSystem) (directory : String) :
    (fromDirectory files directory).value =
      (manifests files directory).value.map fun found => found.map fun each =>
        each.manifest.toContribution.orProvider (directoryProvider directory) := by
  rw [fromDirectory_eq, Journaled.value_bind]
  cases (manifests files directory).value with
  | error fault => rfl
  | ok found => rfl

theorem events_fromDirectory (files : FileSystem) (directory : String) :
    (fromDirectory files directory).events = [] := by
  simp only [fromDirectory_eq, Journaled.events_bind, events_manifests, List.nil_append]
  cases (manifests files directory).value with
  | error fault => rfl
  | ok found => rfl

mutual

/-- Asking a source reports no event. -/
theorem events_run (files : FileSystem) (source : Discovery) : (run files source).events = [] := by
  match source with
  | .fixed answer => rfl
  | .registered registrations => rfl
  | .directory path => exact events_fromDirectory files path
  | .chained sources => exact events_runAll files sources

theorem events_runAll (files : FileSystem) (sources : List Discovery) :
    (runAll files sources).events = [] := by
  match sources with
  | [] => rfl
  | source :: rest =>
      rw [runAll, Journaled.events_bind, events_run files source, List.nil_append]
      cases (run files source).value with
      | error fault => rfl
      | ok found =>
          rw [Journaled.events_bind, events_runAll files rest, List.nil_append]
          cases (runAll files rest).value with
          | error fault => rfl
          | ok others => rfl

end

end Discovery

end Overlay
