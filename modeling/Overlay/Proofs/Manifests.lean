import Overlay.Assembly
import Overlay.Proofs.ByteOrder
import Overlay.Proofs.Declared
import Overlay.Proofs.Discovery
import Overlay.Proofs.FileTree
import Overlay.Proofs.Rules

/-!
# Manifests below a directory

Which folders have a manifest, which manifest a file has in it, and why a file is refused as one
is said here by the files alone.  When the manifests below a directory are all accepted, what is
found is the manifest of every folder that has one, folder after folder in the order of their
names.  A manifest describes a module that is recognised by its name, so of several with one name
the one in the first folder is retained.
-/

namespace Overlay

/-! ## Files as manifests -/

/-- A file has a manifest in it: its text spells one, and that has a name. -/
def Manifest.WrittenIn (manifest : Manifest) (node : FileTree) : Prop :=
  ∃ text, node.text = .ok text ∧ (Toml.parse? text).bind ofEntries? = some manifest ∧
    manifest.name ≠ ""

namespace Discovery

/-- A file is accepted for the manifest in it, which obeys the rules. -/
structure Accepted (node : FileTree) (manifest : Manifest) : Prop where
  written : manifest.WrittenIn node
  obeys : manifest.Obeys

/-- A file is refused as a manifest: it has no text, its text spells no manifest or one without a
name, or the manifest breaks rules. -/
inductive Refused (node : FileTree) : String → Prop where
  | unreadable {fault : ReadFault} (unread : node.text = .error fault) :
      Refused node (ManifestFault.unreadable fault).message
  | malformed {text : String} (read : node.text = .ok text)
      (unspelled : (Toml.parse? text).bind Manifest.ofEntries? = none) :
      Refused node ManifestFault.malformed.message
  | unnamed {text : String} {manifest : Manifest} (read : node.text = .ok text)
      (spelled : (Toml.parse? text).bind Manifest.ofEntries? = some manifest)
      (nameless : manifest.name = "") : Refused node ManifestFault.unnamed.message
  | invalid {manifest : Manifest} (written : manifest.WrittenIn node)
      (disobeys : ¬ manifest.Obeys) :
      Refused node ("; ".intercalate (manifest.problems.map ManifestProblem.message))

section Files

variable {path : String} {node : FileTree} {manifest : Manifest}

theorem writtenIn_file {text : String}
    (spelled : (Toml.parse? text).bind Manifest.ofEntries? = some manifest)
    (named : manifest.name ≠ "") : manifest.WrittenIn (.file text.toUTF8) :=
  ⟨text, FileSystem.text_file text, spelled, named⟩

theorem accepted_file {text : String}
    (spelled : (Toml.parse? text).bind Manifest.ofEntries? = some manifest)
    (named : manifest.name ≠ "") (unproblematic : manifest.problems = []) :
    Accepted (.file text.toUTF8) manifest :=
  ⟨writtenIn_file spelled named, Manifest.problems_eq_nil_iff.mp unproblematic⟩

/-- A manifest without settings and bindings is known by its other entries. -/
theorem eq_some_of_entries {spelled : Option Manifest} {name : String}
    {description : Option String} {deprecated : Bool} {overrides : List String}
    (same : (spelled.map fun found => (found.name, found.description, found.deprecated,
      found.overrides, found.configs.isEmpty && found.bindings.isEmpty)) =
        some (name, description, deprecated, overrides, true)) :
    spelled = some {
      name, description, deprecated, overrides, configs := .empty, bindings := .empty } := by
  obtain ⟨⟨_, _, _, _, ⟨configs, _⟩, ⟨bindings, _⟩⟩, rfl, fields⟩ := Option.map_eq_some_iff.mp same
  simp only [OrderedMap.isEmpty, Prod.mk.injEq, Bool.and_eq_true, List.isEmpty_iff] at fields
  obtain ⟨rfl, rfl, rfl, rfl, rfl, rfl⟩ := fields
  rfl

/-- No file has two manifests in it. -/
theorem writtenIn_unique {other : Manifest} (written : manifest.WrittenIn node)
    (alsoWritten : other.WrittenIn node) : manifest = other := by
  obtain ⟨text, read, spelled, -⟩ := written
  obtain ⟨same, alsoRead, alsoSpelled, -⟩ := alsoWritten
  cases read.symm.trans alsoRead
  exact Option.some.inj (spelled.symm.trans alsoSpelled)

theorem readManifest_eq_ok_iff : readManifest node = .ok manifest ↔ manifest.WrittenIn node := by
  rw [readManifest, Manifest.WrittenIn]
  cases node.text with
  | error fault => simp
  | ok text =>
      simp only [Except.ok.injEq, exists_eq_left']
      rw [Manifest.parse]
      cases (Toml.parse? text).bind Manifest.ofEntries? with
      | none => simp
      | some other =>
          dsimp only
          split
          · next nameless =>
              rw [String.isEmpty_iff] at nameless
              refine iff_of_false (fun same => by cases same) ?_
              rintro ⟨same, named⟩
              exact named (Option.some.inj same ▸ nameless)
          · next named =>
              rw [String.isEmpty_iff] at named
              constructor
              · intro same
                cases same
                exact ⟨rfl, named⟩
              · rintro ⟨same, _⟩
                rw [Option.some.inj same]

theorem accepted_or_refused (node : FileTree) :
    (∃ manifest, Accepted node manifest) ∨ ∃ reason, Refused node reason := by
  cases read : node.text with
  | error fault => exact .inr ⟨_, .unreadable read⟩
  | ok text =>
      cases spelled : (Toml.parse? text).bind Manifest.ofEntries? with
      | none => exact .inr ⟨_, .malformed read spelled⟩
      | some manifest =>
          by_cases nameless : manifest.name = ""
          · exact .inr ⟨_, .unnamed read spelled nameless⟩
          have written : manifest.WrittenIn node := ⟨text, read, spelled, nameless⟩
          by_cases obeys : manifest.Obeys
          · exact .inl ⟨manifest, written, obeys⟩
          · exact .inr ⟨_, .invalid written obeys⟩

theorem value_acceptManifest_of_accepted (accepted : Accepted node manifest) :
    (acceptManifest path node).value = .ok ⟨path, manifest⟩ := by
  rw [acceptManifest, readManifest_eq_ok_iff.mpr accepted.written]
  dsimp only
  rw [Journaled.value_bind, Manifest.check, Manifest.verdict,
    Manifest.problems_eq_nil_iff.mpr accepted.obeys]
  rfl

theorem value_acceptManifest_of_refused {reason : String} (refused : Refused node reason) :
    (acceptManifest path node).value = .error (.manifest path reason) := by
  rw [acceptManifest]
  cases refused with
  | unreadable unread =>
      rw [readManifest, unread]
      rfl
  | malformed read unspelled =>
      rw [readManifest, read]
      dsimp only
      rw [Manifest.parse, unspelled]
      rfl
  | unnamed read spelled nameless =>
      rw [readManifest, read]
      dsimp only
      rw [Manifest.parse, spelled]
      dsimp only
      rw [if_pos (String.isEmpty_iff.mpr nameless)]
      rfl
  | @invalid manifest written disobeys =>
      rw [readManifest_eq_ok_iff.mpr written]
      dsimp only
      rw [Journaled.value_bind, Manifest.check, Manifest.verdict]
      cases found : manifest.problems with
      | nil => exact (disobeys (Manifest.problems_eq_nil_iff.mp found)).elim
      | cons problem others => rfl

theorem acceptManifest_eq_ok_iff {found : FoundManifest} :
    (acceptManifest path node).value = .ok found ↔
      Accepted node found.manifest ∧ found.path = path := by
  constructor
  · intro outcome
    rcases accepted_or_refused node with ⟨manifest, accepted⟩ | ⟨reason, refused⟩
    · cases outcome.symm.trans (value_acceptManifest_of_accepted accepted)
      exact ⟨accepted, rfl⟩
    · cases outcome.symm.trans (value_acceptManifest_of_refused refused)
  · rintro ⟨accepted, rfl⟩
    exact value_acceptManifest_of_accepted accepted

theorem acceptManifest_eq_error_iff {fault : DiscoveryFault} :
    (acceptManifest path node).value = .error fault ↔
      ∃ reason, Refused node reason ∧ fault = .manifest path reason := by
  constructor
  · intro outcome
    rcases accepted_or_refused node with ⟨manifest, accepted⟩ | ⟨reason, refused⟩
    · cases outcome.symm.trans (value_acceptManifest_of_accepted accepted)
    · cases outcome.symm.trans (value_acceptManifest_of_refused refused)
      exact ⟨reason, refused, rfl⟩
  · rintro ⟨reason, refused, rfl⟩
    exact value_acceptManifest_of_refused refused

end Files

end Discovery

/-! ## Folders with manifests -/

/-- A folder by its name, with the manifest in it. -/
structure ModuleFolder where
  folder : String
  manifest : Manifest

namespace Discovery

/-- Where the manifest of a folder below a directory lies. -/
def manifestPath (directory folder : String) : String :=
  join (join directory folder) manifestFile

/-- A folder among the entries of a directory has a manifest.  As for every file, a path has
to lead there. -/
def HasManifest (directory : String) (entries : FileTree.Entries) (folder : String)
    (node : FileTree) : Prop :=
  ∃ inner, (folder, FileTree.folder inner) ∈ entries ∧
    FileTree.child? manifestFile inner = some node ∧
    FileSystem.isPath (join directory folder) = true ∧
    FileSystem.isPath (manifestPath directory folder) = true

/-- A folder of a directory with the manifest in its file. -/
def Describes (directory : String) (entries : FileTree.Entries) (found : ModuleFolder) : Prop :=
  ∃ node, HasManifest directory entries found.folder node ∧ found.manifest.WrittenIn node

/-- A directory, if there is one, can be listed, and every manifest below it is accepted. -/
def Discoverable (files : FileSystem) (directory : String) : Prop :=
  files.isPresent directory = true → ∃ entries, files.list directory = .ok entries ∧
    ∀ folder node, HasManifest directory entries folder node → ∃ manifest, Accepted node manifest

/-- The file of the manifest in an entry of a directory, if the entry is a folder that has
one and a path leads there. -/
def manifestNode? (directory : String) : String × FileTree → Option FileTree
  | (_, .file _) => none
  | (name, .folder inner) =>
      if FileSystem.isPath (join directory name) then manifestIn? (join directory name) inner
      else none

/-- The manifest in an entry of a directory, if it has one to read. -/
def moduleFolder? (directory : String) (entry : String × FileTree) : Option ModuleFolder := do
  let node ← manifestNode? directory entry
  let manifest ← (readManifest node).toOption
  some ⟨entry.1, manifest⟩

/-- The folders below a directory that have manifests, in the order of their names. -/
def moduleFolders (files : FileSystem) (directory : String) : List ModuleFolder :=
  match files.list directory with
  | .ok entries => (byName entries).filterMap (moduleFolder? directory)
  | .error _ => []

/-- The manifest in a folder of a directory, with the path of its file. -/
def foundIn (directory : String) (found : ModuleFolder) : FoundManifest :=
  ⟨join (join directory found.folder) manifestFile, found.manifest⟩

/-- A scan takes what is acceptable, entry after entry. -/
theorem value_scan_cons (directory : String) (entry : String × FileTree)
    (rest : FileTree.Entries) :
    (scan directory (entry :: rest)).value =
      match manifestNode? directory entry with
      | none => (scan directory rest).value
      | some node =>
          match (acceptManifest (join (join directory entry.1) manifestFile) node).value with
          | .error fault => .error fault
          | .ok first => (scan directory rest).value.map (first :: ·) := by
  obtain ⟨name, node⟩ := entry
  cases node with
  | file bytes => rfl
  | folder inner =>
      rw [scan, manifestNode?]
      by_cases path : FileSystem.isPath (join directory name) = true
      case neg => rw [if_neg path, if_pos (by simpa using path)]
      rw [if_pos path, if_neg (by simpa using path)]
      cases manifestIn? (join directory name) inner with
      | none => rfl
      | some node =>
          dsimp only
          rw [Journaled.value_bind]
          cases (acceptManifest (join (join directory name) manifestFile) node).value with
          | error fault => rfl
          | ok first =>
              dsimp only
              rw [Journaled.value_bind]
              cases (scan directory rest).value <;> rfl

theorem scan_eq_ok {directory : String} {entries : FileTree.Entries} {found : List FoundManifest}
    (scanned : (scan directory entries).value = .ok found) :
    found = (entries.filterMap (moduleFolder? directory)).map (foundIn directory) := by
  induction entries generalizing found with
  | nil =>
      cases scanned
      rfl
  | cons entry rest ih =>
      rw [value_scan_cons] at scanned
      cases inside : manifestNode? directory entry with
      | none =>
          have passed : moduleFolder? directory entry = none := by
            rw [moduleFolder?, inside]
            rfl
          rw [inside] at scanned
          rw [List.filterMap_cons_none passed]
          exact ih scanned
      | some node =>
          rw [inside] at scanned
          dsimp only at scanned
          cases accepted :
              (acceptManifest (join (join directory entry.1) manifestFile) node).value with
          | error fault =>
              rw [accepted] at scanned
              cases scanned
          | ok first =>
              rw [accepted] at scanned
              cases remaining : (scan directory rest).value with
              | error fault =>
                  rw [remaining] at scanned
                  cases scanned
              | ok others =>
                  rw [remaining] at scanned
                  cases scanned
                  obtain ⟨⟨written, _⟩, place⟩ := acceptManifest_eq_ok_iff.mp accepted
                  have taken : moduleFolder? directory entry = some ⟨entry.1, first.manifest⟩ := by
                    rw [moduleFolder?, inside]
                    simp only [Option.bind_eq_bind, Option.bind_some,
                      readManifest_eq_ok_iff.mpr written, Except.toOption]
                  rw [List.filterMap_cons_some taken, List.map_cons, ← ih remaining, foundIn,
                    ← place]

theorem exists_accepted_iff (path : String) (node : FileTree) :
    (∃ found, (acceptManifest path node).value = .ok found) ↔
      ∃ manifest, Accepted node manifest := by
  constructor
  · rintro ⟨found, accepted⟩
    exact ⟨_, (acceptManifest_eq_ok_iff.mp accepted).1⟩
  · rintro ⟨manifest, accepted⟩
    exact ⟨_, value_acceptManifest_of_accepted accepted⟩

theorem exists_scanned_iff (directory : String) (entries : FileTree.Entries) :
    (∃ found, (scan directory entries).value = .ok found) ↔
      ∀ entry ∈ entries, ∀ node, manifestNode? directory entry = some node →
        ∃ manifest, Accepted node manifest := by
  induction entries with
  | nil => exact ⟨fun _ _ absent => (List.not_mem_nil absent).elim, fun _ => ⟨[], rfl⟩⟩
  | cons entry rest ih =>
      rw [value_scan_cons, List.forall_mem_cons, ← ih]
      cases inside : manifestNode? directory entry with
      | none => simp only [reduceCtorEq, false_implies, implies_true, true_and]
      | some node =>
          have acceptable :=
            exists_accepted_iff (join (join directory entry.1) manifestFile) node
          simp only [Option.some.injEq, forall_eq', ← acceptable]
          cases (acceptManifest (join (join directory entry.1) manifestFile) node).value with
          | error fault => simp only [reduceCtorEq, exists_false, false_and]
          | ok first =>
              cases (scan directory rest).value with
              | error fault => simp only [Except.map, reduceCtorEq, exists_false, and_false]
              | ok others => simp only [Except.map, Except.ok.injEq, exists_eq', and_self]

theorem manifestNode?_eq_some_iff {directory : String} {entry : String × FileTree}
    {node : FileTree} :
    manifestNode? directory entry = some node ↔
      ∃ inner, entry.2 = .folder inner ∧ FileTree.child? manifestFile inner = some node ∧
        FileSystem.isPath (join directory entry.1) = true ∧
        FileSystem.isPath (manifestPath directory entry.1) = true := by
  obtain ⟨name, tree⟩ := entry
  cases tree with
  | file bytes => simp [manifestNode?]
  | folder inner =>
      rw [manifestNode?, manifestIn?, manifestPath]
      split
      · next path =>
          split
          · next inside => simp [path, inside]
          · next outside => simp [outside]
      · next outside => simp [outside]

theorem hasManifest_iff {directory : String} {entries : FileTree.Entries} {folder : String}
    {node : FileTree} :
    HasManifest directory entries folder node ↔
      ∃ entry ∈ entries, entry.1 = folder ∧ manifestNode? directory entry = some node := by
  simp only [manifestNode?_eq_some_iff]
  constructor
  · rintro ⟨inner, member, inside⟩
    exact ⟨_, member, rfl, inner, rfl, inside⟩
  · rintro ⟨⟨name, tree⟩, member, rfl, inner, rfl, inside⟩
    exact ⟨inner, member, inside⟩

theorem forall_manifestNode?_iff {directory : String} {entries : FileTree.Entries}
    {Holds : FileTree → Prop} :
    (∀ entry ∈ entries, ∀ node, manifestNode? directory entry = some node → Holds node) ↔
      ∀ folder node, HasManifest directory entries folder node → Holds node := by
  simp only [hasManifest_iff]
  constructor
  · rintro every folder node ⟨entry, member, -, inside⟩
    exact every entry member node inside
  · intro every entry member node inside
    exact every entry.1 node ⟨entry, member, rfl, inside⟩

theorem isPresent_of_listed {files : FileSystem} {directory : String}
    {entries : FileTree.Entries} (listed : files.list directory = .ok entries) :
    files.isPresent directory = true := by
  rw [FileSystem.isPresent]
  cases looked : files.lookup directory with
  | ok node => rfl
  | error fault =>
      rw [FileSystem.list, looked] at listed
      cases listed

theorem exists_manifests_iff (files : FileSystem) (directory : String) :
    (∃ found, (manifests files directory).value = .ok found) ↔ Discoverable files directory := by
  rw [manifests, Journaled.value_bind, Discoverable]
  by_cases present : files.isPresent directory = true
  case neg =>
    rw [if_neg present]
    exact ⟨fun _ there => (present there).elim, fun _ => ⟨[], rfl⟩⟩
  rw [if_pos present]
  cases files.list directory with
  | error fault =>
      constructor
      · rintro ⟨found, listed⟩
        cases listed
      · intro listed
        obtain ⟨entries, otherwise, _⟩ := listed present
        cases otherwise
  | ok entries =>
      have inOrder : ∀ entry, entry ∈ byName entries ↔ entry ∈ entries := fun entry =>
        (List.mergeSort_perm entries _).mem_iff
      have scanned := exists_scanned_iff directory (byName entries)
      simp only [inOrder, forall_manifestNode?_iff] at scanned
      simp only [present, forall_const, Except.ok.injEq, exists_eq_left', ← scanned]
      rw [Journaled.value_bind]
      cases (scan directory (byName entries)).value with
      | error fault =>
          constructor
          · rintro ⟨found, listed⟩
            cases listed
          · rintro ⟨found, otherwise⟩
            cases otherwise
      | ok found => exact ⟨fun _ => ⟨found, rfl⟩, fun _ => ⟨found, rfl⟩⟩

/-- The folders that have manifests are those that describe modules, whatever the order in which
they are listed. -/
theorem mem_moduleFolders_iff {files : FileSystem} {directory : String} {found : ModuleFolder} :
    found ∈ moduleFolders files directory ↔
      ∃ entries, files.list directory = .ok entries ∧ Describes directory entries found := by
  rw [moduleFolders]
  cases files.list directory with
  | error fault => simp
  | ok entries =>
      have read : ∀ node, (readManifest node).toOption = some found.manifest ↔
          found.manifest.WrittenIn node := by
        intro node
        rw [← readManifest_eq_ok_iff]
        cases readManifest node <;> simp [Except.toOption]
      obtain ⟨folder, manifest⟩ := found
      simp only [Except.ok.injEq, exists_eq_left', List.mem_filterMap, byName,
        List.mem_mergeSort, moduleFolder?, Option.bind_eq_bind, Option.bind_eq_some_iff, Describes,
        hasManifest_iff]
      constructor
      · rintro ⟨entry, member, node, inside, other, taken, same⟩
        cases same
        exact ⟨node, ⟨entry, member, rfl, inside⟩, (read node).mp taken⟩
      · rintro ⟨node, ⟨entry, member, rfl, inside⟩, written⟩
        exact ⟨entry, member, node, inside, manifest, (read node).mpr written, rfl⟩

theorem mem_moduleFolders_iff_describes {files : FileSystem} {directory : String}
    {entries : FileTree.Entries} (listed : files.list directory = .ok entries)
    {found : ModuleFolder} :
    found ∈ moduleFolders files directory ↔ Describes directory entries found := by
  rw [mem_moduleFolders_iff, listed]
  simp only [Except.ok.injEq, exists_eq_left']

theorem manifests_eq_ok {files : FileSystem} {directory : String} {found : List FoundManifest}
    (outcome : (manifests files directory).value = .ok found) :
    found = (moduleFolders files directory).map (foundIn directory) := by
  rw [manifests, Journaled.value_bind] at outcome
  rw [moduleFolders]
  split at outcome
  · cases listed : files.list directory with
    | error fault =>
        rw [listed] at outcome
        cases outcome
    | ok entries =>
        rw [listed] at outcome
        dsimp only at outcome
        rw [Journaled.value_bind] at outcome
        cases scanned : (scan directory (byName entries)).value with
        | error fault =>
            rw [scanned] at outcome
            cases outcome
        | ok folders =>
            rw [scanned] at outcome
            cases outcome
            exact scan_eq_ok scanned
  · next absent =>
      cases outcome
      cases listed : files.list directory with
      | error fault => rfl
      | ok entries => exact (absent (isPresent_of_listed listed)).elim

theorem byName_sorted (entries : FileTree.Entries) :
    (byName entries).Pairwise fun left right => left.1 ≤ right.1 := by
  let before (left right : String × FileTree) : Bool := left.1 ≤ right.1
  have transitive : ∀ first second third, before first second → before second third →
      before first third := fun _ _ _ left right =>
    decide_eq_true (String.le_trans (of_decide_eq_true left) (of_decide_eq_true right))
  have total : ∀ left right, (before left right || before right left) = true := by
    intro left right
    rw [Bool.or_eq_true]
    exact (String.le_total left.1 right.1).imp decide_eq_true decide_eq_true
  exact (List.pairwise_mergeSort transitive total entries).imp of_decide_eq_true

theorem folder_of_moduleFolder? {directory : String} {entry : String × FileTree}
    {found : ModuleFolder} (taken : moduleFolder? directory entry = some found) :
    found.folder = entry.1 := by
  obtain ⟨node, _, taken⟩ := Option.bind_eq_some_iff.mp taken
  obtain ⟨manifest, _, taken⟩ := Option.bind_eq_some_iff.mp taken
  cases taken
  rfl

/-- Folders stand in the order of the bytes of their names. -/
theorem moduleFolders_sorted (files : FileSystem) (directory : String) :
    (moduleFolders files directory).Pairwise fun left right =>
      ByteOrder.bytes left.folder ≤ ByteOrder.bytes right.folder := by
  rw [moduleFolders]
  cases files.list directory with
  | error fault => exact .nil
  | ok entries =>
      refine (byName_sorted entries).filterMap _ ?_
      intro first second ordered left taken right alsoTaken
      rw [folder_of_moduleFolder? taken, folder_of_moduleFolder? alsoTaken]
      exact ByteOrder.le_iff_bytes_le.mp ordered

end Discovery

/-! ## Modules of manifests -/

/-- What a manifest contributes. -/
def ModuleFolder.contribution (provider : String) (found : ModuleFolder) : Contribution :=
  found.manifest.toContribution.orProvider provider

/-- The folders whose manifests are retained: of several that name one module, the first. -/
def retainedFolders (folders : List ModuleFolder) : List ModuleFolder :=
  firsts (fun found => found.manifest.name) folders

namespace ModuleFolder

variable {provider : String} {folders : List ModuleFolder} {found other : ModuleFolder}

theorem key_contribution : (found.contribution provider).key = .named found.manifest.name := by
  rw [contribution, Manifest.toContribution_eq]
  rfl

theorem moduleName_contribution :
    (found.contribution provider).moduleName = found.manifest.name := by
  rw [contribution, Manifest.toContribution_eq]
  rfl

theorem orProvider_contribution (label : String) :
    (found.contribution provider).orProvider label = found.contribution provider := by
  rw [contribution, Manifest.toContribution_eq]
  rfl

/-- What manifests contribute names its provider already. -/
theorem collect_contributions :
    collect [] [] (folders.map (contribution provider)) = folders.map (contribution provider) := by
  simp only [collect, List.map_nil, List.nil_append, List.map_map]
  exact List.map_congr_left fun _ _ => orProvider_contribution _

/-- A manifest claims to override the modules that it lists. -/
theorem declares_contribution_iff :
    (other.contribution provider).Declares (found.contribution provider) ↔
      found.manifest.name ∈ other.manifest.overrides := by
  rw [Contribution.Declares, key_contribution, contribution, Manifest.toContribution_eq]
  refine (OrderedSet.mem_keys_extend _ _ _).trans ?_
  simp [OrderedSet.empty, Identity.key]

theorem retained_contributions :
    retained (folders.map (contribution provider)) =
      (retainedFolders folders).map (contribution provider) := by
  have keys : (fun found => (contribution provider found).key) =
      fun found => Identity.Key.named found.manifest.name :=
    funext fun _ => key_contribution
  rw [retained, firsts_map, keys, firsts_of_injective fun _ _ => Identity.Key.named.inj]
  rfl

/-- A module takes effect by itself unless a retained manifest lists it. -/
theorem outermost_contributions :
    Declared.outermost ((retainedFolders folders).map (contribution provider)) =
      ((retainedFolders folders).filter fun found =>
        ∀ other ∈ retainedFolders folders, found.manifest.name ∉ other.manifest.overrides).map
          (contribution provider) := by
  rw [Declared.outermost, List.filter_map]
  congr 1
  apply List.filter_congr
  intro found _
  rw [Function.comp, decide_eq_decide]
  simp only [List.mem_map, exists_exists_and_eq_and, declares_contribution_iff, not_exists, not_and]

end ModuleFolder

end Overlay
