import Mathlib.Data.List.Sort
import Overlay.Proofs.Manifests
import Overlay.Proofs.Resolution

/-!
# The order in which a directory is listed

The system lists the entries of a directory in any order, with files among them and folders
that have no manifest.  None of this shows.  The folders that have a manifest are looked at
in the order of the bytes of their names; either every manifest is accepted, or the first
that is not decides the answer alone.  Since the first of several contributions to one module
is retained, a manifest gives way to one of the same name in a folder of a smaller name.
-/

namespace Overlay

/-! ## Traversals that stop at the first error -/

section Traversal

variable {α β ε : Type} {act : α → Except ε β}

theorem mapM_cons_of_ok {first : α} {result : β} (accepted : act first = .ok result)
    (rest : List α) : (first :: rest).mapM act = (rest.mapM act).map (result :: ·) := by
  rw [List.mapM_cons, accepted]
  cases rest.mapM act <;> rfl

theorem mapM_cons_of_error {first : α} {fault : ε} (refused : act first = .error fault)
    (rest : List α) : (first :: rest).mapM act = .error fault := by
  rw [List.mapM_cons, refused]
  rfl

theorem mapM_eq_ok_iff {elements : List α} {results : List β} :
    elements.mapM act = .ok results ↔
      List.Forall₂ (fun element result => act element = .ok result) elements results := by
  induction elements generalizing results with
  | nil =>
      rw [List.mapM_nil, List.forall₂_nil_left_iff]
      exact ⟨fun same => (Except.ok.inj same).symm, fun none => none ▸ rfl⟩
  | cons first rest ih =>
      rw [List.forall₂_cons_left_iff]
      cases head : act first with
      | error fault =>
          rw [mapM_cons_of_error head]
          exact iff_of_false (fun same => by cases same) fun found => by
            obtain ⟨_, _, accepted, _⟩ := found
            cases accepted
      | ok result =>
          rw [mapM_cons_of_ok head]
          simp only [Except.ok.injEq, ← ih]
          cases rest.mapM act with
          | error fault => simp [Except.map]
          | ok others => simp [Except.map, eq_comm]

/-- A traversal fails as the first element that fails. -/
theorem mapM_eq_error_iff {elements : List α} {fault : ε} :
    elements.mapM act = .error fault ↔
      ∃ before first after, elements = before ++ first :: after ∧
        (∀ earlier ∈ before, ∃ result, act earlier = .ok result) ∧ act first = .error fault := by
  induction elements with
  | nil =>
      exact iff_of_false (fun same => by cases same) fun found => by
        obtain ⟨before, _, _, split, _⟩ := found
        cases before <;> cases split
  | cons head rest ih =>
      cases answer : act head with
      | error other =>
          rw [mapM_cons_of_error answer]
          constructor
          · rintro ⟨⟩
            exact ⟨[], head, rest, rfl, fun _ absent => (List.not_mem_nil absent).elim, answer⟩
          · rintro ⟨before, first, after, split, accepted, refused⟩
            cases before with
            | nil =>
                cases split
                exact congrArg Except.error (Except.error.inj (answer.symm.trans refused))
            | cons earlier before =>
                cases split
                obtain ⟨result, same⟩ := accepted head List.mem_cons_self
                cases answer.symm.trans same
      | ok result =>
          have further : (head :: rest).mapM act = .error fault ↔
              rest.mapM act = .error fault := by
            rw [mapM_cons_of_ok answer]
            cases rest.mapM act <;> simp [Except.map]
          rw [further, ih]
          constructor
          · rintro ⟨before, first, after, rfl, accepted, refused⟩
            exact ⟨head :: before, first, after, rfl,
              List.forall_mem_cons.mpr ⟨⟨result, answer⟩, accepted⟩, refused⟩
          · rintro ⟨before, first, after, split, accepted, refused⟩
            cases before with
            | nil =>
                cases split
                cases answer.symm.trans refused
            | cons earlier before =>
                cases split
                exact ⟨before, first, after, rfl, (List.forall_mem_cons.mp accepted).2, refused⟩

end Traversal

namespace Discovery

/-! ## Folders that have a manifest -/

/-- A folder with the node of its manifest, if the entry has one. -/
def holder? (directory : String) (entry : String × FileTree) : Option (String × FileTree) :=
  (manifestNode? directory entry).map (entry.1, ·)

/-- The folders among the entries of a directory that have manifests, by name. -/
def holders (directory : String) (entries : FileTree.Entries) : List (String × FileTree) :=
  (byName entries).filterMap (holder? directory)

/-- The answer for the folders with manifests alone. -/
def acceptHolder (directory : String) (holder : String × FileTree) :
    Except DiscoveryFault FoundManifest :=
  (acceptManifest (manifestPath directory holder.1) holder.2).value

theorem acceptHolder_eq_ok_iff {directory : String} {holder : String × FileTree}
    {found : FoundManifest} :
    acceptHolder directory holder = .ok found ↔
      Accepted holder.2 found.manifest ∧ found.path = manifestPath directory holder.1 :=
  acceptManifest_eq_ok_iff

theorem acceptHolder_eq_error_iff {directory : String} {holder : String × FileTree}
    {fault : DiscoveryFault} :
    acceptHolder directory holder = .error fault ↔
      ∃ reason, Refused holder.2 reason ∧
        fault = .manifest (manifestPath directory holder.1) reason :=
  acceptManifest_eq_error_iff

theorem exists_acceptHolder_iff {directory : String} {holder : String × FileTree} :
    (∃ found, acceptHolder directory holder = .ok found) ↔
      ∃ manifest, Accepted holder.2 manifest :=
  exists_accepted_iff _ _

/-- Scanning entries is judging the folders that have a manifest. -/
theorem value_scan (directory : String) (entries : FileTree.Entries) :
    (scan directory entries).value =
      (entries.filterMap (holder? directory)).mapM (acceptHolder directory) := by
  induction entries with
  | nil => rfl
  | cons entry rest ih =>
      rw [value_scan_cons, List.filterMap_cons, holder?, ih]
      cases manifestNode? directory entry with
      | none => rfl
      | some node =>
          dsimp only [Option.map_some]
          have accepted : (acceptManifest (join (join directory entry.1) manifestFile) node).value =
              acceptHolder directory (entry.1, node) := rfl
          rw [accepted]
          cases answer : acceptHolder directory (entry.1, node) with
          | error fault => rw [mapM_cons_of_error answer]
          | ok found => rw [mapM_cons_of_ok answer]

theorem value_manifests {files : FileSystem} {directory : String} {entries : FileTree.Entries}
    (listed : files.list directory = .ok entries) :
    (manifests files directory).value =
      (holders directory entries).mapM (acceptHolder directory) := by
  rw [manifests, Journaled.value_bind, if_pos (isPresent_of_listed listed), listed, holders,
    ← value_scan]
  dsimp only
  rw [Journaled.value_bind]
  cases (scan directory (byName entries)).value <;> rfl

theorem value_manifests_of_absent {files : FileSystem} {directory : String}
    (absent : files.isPresent directory = false) : (manifests files directory).value = .ok [] := by
  rw [manifests, Journaled.value_bind, absent, if_neg Bool.false_ne_true]
  rfl

/-- The folders with manifests are all listed, and nothing else. -/
theorem mem_holders_iff {directory : String} {entries : FileTree.Entries} {folder : String}
    {node : FileTree} :
    (folder, node) ∈ holders directory entries ↔ HasManifest directory entries folder node := by
  simp only [holders, List.mem_filterMap, byName, List.mem_mergeSort, holder?,
    Option.map_eq_some_iff, hasManifest_iff]
  constructor
  · rintro ⟨entry, member, _, inside, same⟩
    cases same
    exact ⟨entry, member, rfl, inside⟩
  · rintro ⟨entry, member, rfl, inside⟩
    exact ⟨entry, member, node, inside, rfl⟩

/-- Modules are described by the folders with manifests, where those can be read. -/
theorem moduleFolders_eq {files : FileSystem} {directory : String} {entries : FileTree.Entries}
    (listed : files.list directory = .ok entries) :
    moduleFolders files directory = (holders directory entries).filterMap fun holder =>
      (readManifest holder.2).toOption.map (ModuleFolder.mk holder.1) := by
  have through : moduleFolder? directory = fun entry => (holder? directory entry).bind
      fun holder => (readManifest holder.2).toOption.map (ModuleFolder.mk holder.1) := by
    funext entry
    rw [moduleFolder?, holder?]
    cases manifestNode? directory entry with
    | none => rfl
    | some node => exact Option.map_eq_bind.symm
  rw [moduleFolders, listed, holders, List.filterMap_filterMap, through]

/-- A folder with a manifest describes a module: the file is accepted for its manifest. -/
structure AcceptedAs (holder : String × FileTree) (found : ModuleFolder) : Prop where
  folder : found.folder = holder.1
  accepted : Accepted holder.2 found.manifest

/-- Manifests that are all accepted are found, in the order of their folders. -/
theorem found_of_accepted {files : FileSystem} {directory : String}
    {entries : FileTree.Entries} (listed : files.list directory = .ok entries)
    {folders : List ModuleFolder}
    (accepted : List.Forall₂ AcceptedAs (holders directory entries) folders) :
    (manifests files directory).value = .ok (folders.map (foundIn directory)) ∧
      moduleFolders files directory = folders := by
  constructor
  · rw [value_manifests listed, mapM_eq_ok_iff, List.forall₂_map_right_iff]
    refine accepted.imp ?_
    rintro holder found ⟨folder, accepted⟩
    exact acceptHolder_eq_ok_iff.mpr ⟨accepted, congrArg (manifestPath directory) folder⟩
  · rw [moduleFolders_eq listed]
    generalize holders directory entries = folders at accepted
    induction accepted with
    | nil => rfl
    | cons first _ ih =>
        obtain ⟨folder, accepted⟩ := first
        rw [List.filterMap_cons, ih, readManifest_eq_ok_iff.mpr accepted.written, ← folder]
        rfl

section Distinct

variable {entries : FileTree.Entries} (distinct : (entries.map Prod.fst).Nodup)
include distinct

theorem byName_strict : (byName entries).Pairwise fun lower upper => lower.1 < upper.1 := by
  have different : (byName entries).Pairwise fun lower upper => lower.1 ≠ upper.1 := by
    rw [← List.pairwise_map]
    exact ((List.mergeSort_perm entries _).map Prod.fst).nodup_iff.mpr distinct
  refine (different.and (byName_sorted entries)).imp ?_
  rintro lower upper ⟨different, ordered⟩
  exact String.not_le.mp fun reversed => different (String.le_antisymm ordered reversed)

/-- There is one way to list entries in the order of their names. -/
theorem byName_eq {sorted : FileTree.Entries} (perm : sorted.Perm entries)
    (strict : sorted.Pairwise fun lower upper => lower.1 < upper.1) :
    byName entries = sorted :=
  ((List.mergeSort_perm entries _).trans perm.symm).eq_of_pairwise
    (fun _ _ _ _ less more => (String.lt_asymm less more).elim) (byName_strict distinct) strict

theorem holders_strict (directory : String) :
    (holders directory entries).Pairwise fun lower upper => lower.1 < upper.1 := by
  refine (byName_strict distinct).filterMap _ ?_
  intro first second ordered left taken right alsoTaken
  obtain ⟨_, _, rfl⟩ := Option.map_eq_some_iff.mp taken
  obtain ⟨_, _, rfl⟩ := Option.map_eq_some_iff.mp alsoTaken
  exact ordered

/-- The folders with manifests determine their list. -/
theorem holders_eq {others : FileTree.Entries} (othersDistinct : (others.map Prod.fst).Nodup)
    {directory : String} (same : ∀ folder node,
      HasManifest directory others folder node ↔ HasManifest directory entries folder node) :
    holders directory others = holders directory entries := by
  have antisymm : Std.Antisymm fun lower upper : String × FileTree => lower.1 < upper.1 :=
    ⟨fun _ _ less more => (String.lt_asymm less more).elim⟩
  have irrefl : Std.Irrefl fun lower upper : String × FileTree => lower.1 < upper.1 :=
    ⟨fun _ less => String.lt_irrefl _ less⟩
  refine (holders_strict othersDistinct directory).eq_of_mem_iff
    (holders_strict distinct directory) ?_
  rintro ⟨folder, node⟩
  rw [mem_holders_iff, mem_holders_iff, same]

end Distinct

/-! ## Manifests of one name -/

theorem moduleFolders_strict {files : FileSystem} {directory : String}
    {entries : FileTree.Entries} (listed : files.list directory = .ok entries)
    (distinct : (entries.map Prod.fst).Nodup) :
    (moduleFolders files directory).Pairwise fun lower upper => lower.folder < upper.folder := by
  rw [moduleFolders, listed]
  refine (byName_strict distinct).filterMap _ ?_
  intro first second ordered left taken right alsoTaken
  rw [folder_of_moduleFolder? taken, folder_of_moduleFolder? alsoTaken]
  exact ordered

end Discovery

/-- Of folders in the order of their names, one that is retained has the smallest name of all whose
manifest has the same name. -/
theorem least_of_mem_retainedFolders {folders : List ModuleFolder}
    (ordered : folders.Pairwise fun lower upper => lower.folder ≤ upper.folder)
    {found : ModuleFolder} (kept : found ∈ retainedFolders folders) :
    ∀ other ∈ folders, other.manifest.name = found.manifest.name → found.folder ≤ other.folder := by
  -- Looking up a name stops at the smallest folder that has it.
  obtain ⟨_, before, after, rfl, none⟩ := List.find?_eq_some_iff_append.mp (mem_firsts_iff.mp kept)
  intro other member named
  rcases List.mem_append.mp member with earlier | later
  · have refused := none other earlier
    rw [decide_eq_true named] at refused
    cases refused
  · rcases List.mem_cons.mp later with rfl | behind
    · exact String.le_refl _
    · exact List.rel_of_pairwise_cons (List.pairwise_append.mp ordered).2.1 behind

/-- Of folders in the order of their names, those are retained that have the smallest name of all
whose manifest has the same name. -/
theorem mem_retainedFolders_iff {folders : List ModuleFolder}
    (strict : folders.Pairwise fun lower upper => lower.folder < upper.folder)
    {found : ModuleFolder} :
    found ∈ retainedFolders folders ↔ found ∈ folders ∧ ∀ other ∈ folders,
      other.manifest.name = found.manifest.name → found.folder ≤ other.folder := by
  have ordered : folders.Pairwise fun lower upper => lower.folder ≤ upper.folder :=
    strict.imp fun less => String.not_lt.mp (String.lt_asymm less)
  constructor
  · exact fun kept => ⟨(firsts_sublist _ _).subset kept, least_of_mem_retainedFolders ordered kept⟩
  · rintro ⟨member, least⟩
    obtain ⟨first, kept, named⟩ := List.mem_map.mp
      (mem_map_firsts_iff.mpr (List.mem_map_of_mem (f := fun each : ModuleFolder =>
        each.manifest.name) member))
    have firstMember : first ∈ folders := (firsts_sublist _ _).subset kept
    have sameFolder := String.le_antisymm
      (least_of_mem_retainedFolders ordered kept found member named.symm)
      (least first firstMember named)
    have once : (folders.map ModuleFolder.folder).Nodup :=
      List.pairwise_map.mpr (strict.imp fun less => String.ne_of_lt less)
    rw [← List.inj_on_of_nodup_map once firstMember member sameFolder]
    exact kept

/-- What comes before and behind, contributions that are not retained among their own may be
left out. -/
theorem value_resolve_retained (earlier contributions later : List Contribution) :
    (resolve (earlier ++ retained contributions ++ later)).value =
      (resolve (earlier ++ contributions ++ later)).value := by
  apply value_resolve_of_retained
  simp only [List.append_assoc, retained, firsts_append earlier, firsts_append_firsts]

namespace Discovery

/-- What a directory with certain entries answers when `folders` lists those that have a
manifest: all manifests, or the fault of the first that is refused. -/
structure AnswersInOrder (directory : String) (entries : FileTree.Entries)
    (folders : List (String × FileTree))
    (answer : Except DiscoveryFault (List FoundManifest)) : Prop where
  mem_iff : ∀ folder node,
    (folder, node) ∈ folders ↔ HasManifest directory entries folder node
  sorted : folders.Pairwise fun lower upper =>
    ByteOrder.bytes lower.1 < ByteOrder.bytes upper.1
  found_iff : ∀ found, answer = .ok found ↔
    List.Forall₂ (fun holder each => Accepted holder.2 each.manifest ∧
      each.path = manifestPath directory holder.1) folders found
  refused_iff : ∀ fault, answer = .error fault ↔
    ∃ before first after reason, folders = before ++ first :: after ∧
      (∀ earlier ∈ before, ∃ manifest, Accepted earlier.2 manifest) ∧
      Refused first.2 reason ∧
      fault = .manifest (manifestPath directory first.1) reason

/-- What is kept of the contributions from a directory: of several manifests with one name
the one in the folder with the smallest name. -/
structure KeepsSmallest (directory : String) (entries : FileTree.Entries)
    (contributions : List Contribution) (kept : List ModuleFolder) : Prop where
  mem_iff : ∀ found, found ∈ kept ↔ Describes directory entries found ∧
    ∀ other, Describes directory entries other → other.manifest.name = found.manifest.name →
      ByteOrder.bytes found.folder ≤ ByteOrder.bytes other.folder
  roster : (Roster.ofContributions contributions).value.elements =
    kept.map fun found =>
      Descriptor.ofContribution (found.contribution (directoryProvider directory))
  /-- Nor does it matter what else is contributed. -/
  resolve_eq : ∀ earlier later : List Contribution,
    (resolve (earlier ++ contributions ++ later)).value =
      (resolve (earlier ++ kept.map (ModuleFolder.contribution (directoryProvider directory)) ++
        later)).value

theorem answersInOrder {files : FileSystem} {directory : String} {entries : FileTree.Entries}
    (listed : files.list directory = .ok entries) (distinct : (entries.map Prod.fst).Nodup) :
    AnswersInOrder directory entries (holders directory entries)
      (manifests files directory).value := by
  rw [value_manifests listed]
  constructor
  case mem_iff => exact fun _ _ => mem_holders_iff
  case sorted => exact (holders_strict distinct directory).imp ByteOrder.lt_iff_bytes_lt.mp
  case found_iff =>
    intro found
    rw [mapM_eq_ok_iff]
    simp only [acceptHolder_eq_ok_iff]
  case refused_iff =>
    intro fault
    simp only [mapM_eq_error_iff, exists_acceptHolder_iff, acceptHolder_eq_error_iff]
    constructor
    · rintro ⟨before, first, after, split, accepted, reason, refused, same⟩
      exact ⟨before, first, after, reason, split, accepted, refused, same⟩
    · rintro ⟨before, first, after, reason, split, accepted, refused, same⟩
      exact ⟨before, first, after, split, accepted, reason, refused, same⟩

theorem fromDirectory_eq_ok {files : FileSystem} {directory : String}
    {contributions : List Contribution}
    (found : (fromDirectory files directory).value = .ok contributions) :
    contributions = (moduleFolders files directory).map
      (ModuleFolder.contribution (directoryProvider directory)) := by
  rw [value_fromDirectory] at found
  obtain ⟨manifests, answer, rfl⟩ := FileTree.map_eq_ok_iff.mp found
  rw [manifests_eq_ok answer, List.map_map]
  rfl

theorem keepsSmallest {files : FileSystem} {directory : String} {entries : FileTree.Entries}
    (listed : files.list directory = .ok entries) (distinct : (entries.map Prod.fst).Nodup)
    {contributions : List Contribution}
    (found : (fromDirectory files directory).value = .ok contributions) :
    KeepsSmallest directory entries contributions
      (retainedFolders (moduleFolders files directory)) := by
  have retainedHere : retained contributions =
      (retainedFolders (moduleFolders files directory)).map
        (ModuleFolder.contribution (directoryProvider directory)) := by
    rw [fromDirectory_eq_ok found, ModuleFolder.retained_contributions]
  constructor
  case mem_iff =>
    intro found
    simp only [mem_retainedFolders_iff (moduleFolders_strict listed distinct),
      mem_moduleFolders_iff_describes listed, ByteOrder.le_iff_bytes_le]
  case roster =>
    rw [Roster.elements_ofContributions, retainedHere, List.map_map]
    rfl
  case resolve_eq =>
    intro earlier later
    rw [← retainedHere, value_resolve_retained]

/-- However the system lists a directory, and whatever else lies in it, its manifests are found in
the order of the bytes of their folders' names, all of them or none; the first that is refused
decides which fault is reported.  Of several manifests with one name the one in the folder
with the smallest name is retained. -/
theorem manifests_of_listing (files : FileSystem) (directory : String) :
    (files.isPresent directory = false → (manifests files directory).value = .ok []) ∧
    ∀ entries, files.list directory = .ok entries → (entries.map Prod.fst).Nodup →
      (∃ folders,
        AnswersInOrder directory entries folders (manifests files directory).value) ∧
      (∀ (other : FileSystem) (others : FileTree.Entries), other.list directory = .ok others →
        others.Perm entries →
        (manifests other directory).value = (manifests files directory).value) ∧
      (∀ (other : FileSystem) (others : FileTree.Entries), other.list directory = .ok others →
        (others.map Prod.fst).Nodup →
        (∀ folder node, HasManifest directory others folder node ↔
          HasManifest directory entries folder node) →
        (manifests other directory).value = (manifests files directory).value) ∧
      (∀ fault, (manifests files directory).value = .error fault →
        (fromDirectory files directory).value = .error fault) ∧
      ∀ found, (manifests files directory).value = .ok found → ∃ contributions kept,
        (fromDirectory files directory).value = .ok contributions ∧
          KeepsSmallest directory entries contributions kept := by
  refine ⟨value_manifests_of_absent, fun entries listed distinct => ?_⟩
  have same : ∀ (other : FileSystem) (others : FileTree.Entries),
      other.list directory = .ok others → (others.map Prod.fst).Nodup →
      (∀ folder node, HasManifest directory others folder node ↔
        HasManifest directory entries folder node) →
      (manifests other directory).value = (manifests files directory).value := by
    intro other others otherListed othersDistinct alike
    rw [value_manifests otherListed, value_manifests listed,
      holders_eq distinct othersDistinct alike]
  refine ⟨⟨_, answersInOrder listed distinct⟩, ?reordered, same, ?failed, ?kept⟩
  case reordered =>
    intro other others otherListed reordered
    refine same other others otherListed
      ((reordered.map Prod.fst).nodup_iff.mpr distinct) fun folder node => ?_
    simp only [HasManifest, reordered.mem_iff]
  case failed =>
    intro fault failed
    rw [value_fromDirectory, failed]
    rfl
  case kept =>
    intro found answer
    have contributed := value_fromDirectory files directory
    rw [answer] at contributed
    exact ⟨_, _, contributed, keepsSmallest listed distinct contributed⟩

/-- A directory listed in two orders, with a file and an empty folder among the others.  Of the two
manifests that name one module the one in the folder `lower` is retained. -/
theorem manifests_of_shuffled_folders :
    let described (text : String) : FileTree := .folder [("module.toml", .file text.toUTF8)]
    let entries : FileTree.Entries := [
      ("lower", described "name = \"core\""), ("notes", .empty),
      ("readme", .file ByteArray.empty),
      ("upper", described "name = \"core\"\ndeprecated = true")]
    let within (entries : FileTree.Entries) : FileSystem :=
      ⟨.folder [("m", .folder entries)], []⟩
    let core : Manifest := {
      name := "core", description := none, deprecated := false, overrides := []
      configs := .empty, bindings := .empty }
    let answer : List FoundManifest := [⟨"m/lower/module.toml", core⟩,
      ⟨"m/upper/module.toml", { core with deprecated := true }⟩]
    (within entries).list "m" = .ok entries ∧ (entries.map Prod.fst).Nodup ∧
      (∃ folders, AnswersInOrder "m" entries folders (manifests (within entries) "m").value) ∧
      (manifests (within entries) "m").value = .ok answer ∧
      (manifests (within entries.reverse) "m").value = .ok answer ∧
      ∃ contributions, (fromDirectory (within entries) "m").value = .ok contributions ∧
        KeepsSmallest "m" entries contributions [⟨"lower", core⟩] := by
  intro described entries within core answer
  have listed : ∀ entries, (within entries).list "m" = .ok entries := fun entries =>
    FileSystem.list_of_child (FileSystem.isPath_iff.mpr (by decide +kernel)) (by decide) (by decide)
      (by decide) rfl
  have distinct : (entries.map Prod.fst).Nodup := by decide
  have holding : holders "m" entries = [("lower", .file "name = \"core\"".toUTF8),
      ("upper", .file "name = \"core\"\ndeprecated = true".toUTF8)] := by
    have sorted : byName entries = entries := List.mergeSort_of_pairwise (by decide)
    have paths : ∀ name ∈ ["lower", "notes", "upper"], FileSystem.isPath (join "m" name) = true ∧
        FileSystem.isPath (join (join "m" name) "module.toml") = true := by
      simp only [FileSystem.isPath_iff]
      decide +kernel
    rw [holders, sorted]
    simp [entries, described, List.filterMap_cons, holder?, manifestNode?, manifestIn?,
      manifestFile, FileTree.child?, FileTree.empty, paths]
  have accepted : List.Forall₂ AcceptedAs (holders "m" entries)
      [⟨"lower", core⟩, ⟨"upper", { core with deprecated := true }⟩] := by
    rw [holding]
    refine .cons ⟨rfl, ?lower⟩ (.cons ⟨rfl, ?upper⟩ .nil)
    case lower =>
      exact accepted_file (eq_some_of_entries (by decide +kernel)) (by decide) (by decide +kernel)
    case upper =>
      exact accepted_file (eq_some_of_entries (by decide +kernel)) (by decide) (by decide +kernel)
  obtain ⟨value, folders⟩ := found_of_accepted (listed entries) accepted
  have answered : (manifests (within entries) "m").value = .ok answer := by
    have places : join (join "m" "lower") manifestFile = "m/lower/module.toml" ∧
        join (join "m" "upper") manifestFile = "m/upper/module.toml" := by decide +kernel
    simp only [value, List.map_cons, List.map_nil, foundIn, places, answer]
  have found := (manifests_of_listing (within entries) "m").2 entries (listed entries) distinct
  have same := found.2.1 (within entries.reverse) _ (listed _) entries.reverse_perm
  obtain ⟨contributions, kept, contributed, keeps⟩ := found.2.2.2.2 _ answered
  have contributing := fromDirectory_eq_ok contributed
  rw [folders] at contributing
  have only : ∀ each ∈ kept, each = ⟨"lower", core⟩ := by
    intro each member
    have smallest := (keeps.mem_iff each).mp member
    simp only [← mem_moduleFolders_iff_describes (listed entries), folders] at smallest
    rcases List.mem_pair.mp smallest.1 with same | same
    · exact same
    · cases same
      exact absurd (smallest.2 _ List.mem_cons_self rfl) (by decide)
  have one : kept.length = 1 := by
    have length := congrArg List.length keeps.roster
    rw [List.length_map, Roster.elements_ofContributions, List.length_map, contributing] at length
    exact length.symm
  obtain ⟨each, rfl⟩ := List.length_eq_one_iff.mp one
  rw [only each List.mem_cons_self] at keeps
  exact ⟨listed entries, distinct, found.1, answered, same.trans answered, _, contributed, keeps⟩

end Discovery

end Overlay
