import Overlay.Proofs.Enumeration
import Overlay.Proofs.Precedence
import Overlay.Proofs.Rules
import Overlay.Proofs.Splitting

/-!
# Cycles among manifests

Manifests that obey the rules never override themselves, so a cycle among them has at least two
members, and each member is known by its name.  Names have no blanks in them, so the names on the
way round a cycle can be told apart in the message.  The way round begins at the manifest whose
folder comes first.
-/

namespace Overlay

open OverrideGraph

/-! ## Manifests that obey the rules -/

namespace IsModuleName

theorem no_blank {name : String} (valid : IsModuleName name) : ' ' ∉ name.toList := by
  intro member
  have letter : Text.isAlphanumeric ' ' = false := by decide +kernel
  rcases valid.chars ' ' member with known | dash | underscore
  · exact Bool.false_ne_true (letter.symm.trans known)
  · cases dash
  · cases underscore

end IsModuleName

namespace Discovery

variable {files : FileSystem} {directory : String} {found : ModuleFolder}

/-- What is discovered obeys the rules. -/
theorem obeys_of_discovered {contributions : List Contribution}
    (discovered : (fromDirectory files directory).value = .ok contributions)
    (member : found ∈ moduleFolders files directory) : found.manifest.Obeys := by
  have discoverable : Discoverable files directory := by
    rw [← exists_manifests_iff]
    rw [value_fromDirectory] at discovered
    obtain ⟨manifests, answer, _⟩ := FileTree.map_eq_ok_iff.mp discovered
    exact ⟨manifests, answer⟩
  cases listed : files.list directory with
  | error fault =>
      rw [moduleFolders, listed] at member
      exact (List.not_mem_nil member).elim
  | ok entries =>
      obtain ⟨others, same, accepted⟩ := discoverable (isPresent_of_listed listed)
      cases listed.symm.trans same
      obtain ⟨node, inside, written⟩ := (mem_moduleFolders_iff_describes listed).mp member
      obtain ⟨manifest, alsoWritten, obeys⟩ := accepted _ node inside
      cases writtenIn_unique written alsoWritten
      exact obeys

end Discovery

/-! ## The walk round a cycle -/

namespace ModuleFolder

/-- The folder with a number. -/
def numbered (folders : List ModuleFolder) (index : Nat) : ModuleFolder :=
  folders[index]?.getD ⟨"", default⟩

variable {folders : List ModuleFolder} {provider : String} {index : Nat}

theorem getElem?_numbered (bound : index < folders.length) :
    folders[index]? = some (numbered folders index) := by
  rw [numbered, List.getElem?_eq_getElem bound, Option.getD_some]

theorem numbered_mem (bound : index < folders.length) : numbered folders index ∈ folders :=
  List.mem_of_getElem? (getElem?_numbered bound)

/-- Folders with numbers in order are in order. -/
theorem rel_numbered {order : ModuleFolder → ModuleFolder → Prop}
    (sorted : folders.Pairwise order) {later : Nat} (less : index < later)
    (bound : later < folders.length) : order (numbered folders index) (numbered folders later) := by
  have first := getElem?_numbered (Nat.lt_trans less bound)
  have second := getElem?_numbered bound
  obtain ⟨firstBound, firstFound⟩ := List.getElem?_eq_some_iff.mp first
  obtain ⟨secondBound, secondFound⟩ := List.getElem?_eq_some_iff.mp second
  rw [← firstFound, ← secondFound]
  exact List.pairwise_iff_getElem.mp sorted _ _ firstBound secondBound less

theorem pick_contributions (bound : index < folders.length) :
    Declared.pick (folders.map (contribution provider)) index =
      (numbered folders index).contribution provider := by
  rw [Declared.pick, List.getElem?_map, getElem?_numbered bound]
  rfl

end ModuleFolder

section Numbers

variable {roster : Roster} {kept : List ModuleFolder} {provider : String}
  (listed : roster.elements =
    (kept.map (ModuleFolder.contribution provider)).map Descriptor.ofContribution)
include listed

theorem size_eq_length : (ofRoster roster).size = kept.length :=
  (Declared.size_eq listed).trans (List.length_map _)

theorem name_numbered {index : Nat} (bound : index < kept.length) :
    (ofRoster roster).name index = (ModuleFolder.numbered kept index).manifest.name := by
  have inList : index < (kept.map (ModuleFolder.contribution provider)).length := by
    rwa [List.length_map]
  rw [Declared.name_eq listed inList, ModuleFolder.pick_contributions bound,
    ModuleFolder.moduleName_contribution]

/-- An edge is a name on a list of overrides. -/
theorem mem_overrides_of_edge {source target : Nat}
    (edge : (ofRoster roster).Overrides source target) :
    (ModuleFolder.numbered kept target).manifest.name ∈
      (ModuleFolder.numbered kept source).manifest.overrides := by
  obtain ⟨sourceBound, targetBound, declares⟩ := (Declared.overrides_iff listed).mp edge
  rw [List.length_map] at sourceBound targetBound
  rwa [ModuleFolder.pick_contributions sourceBound, ModuleFolder.pick_contributions targetBound,
    ModuleFolder.declares_contribution_iff] at declares

end Numbers

/-- A fault walks round a cycle of manifests below a directory.  Of several manifests with one
name, the one in the folder with the smallest name counts. -/
structure WalksRound (directory : String) (entries : FileTree.Entries) (fault : OverrideCycle)
    (first : ModuleFolder) (rest : List ModuleFolder) : Prop where
  path_eq : fault.path = (first :: rest ++ [first]).map fun found => found.manifest.name
  /-- No manifest is a cycle by itself. -/
  several : rest ≠ []
  distinct : ((first :: rest).map fun found => found.manifest.name).Nodup
  retained : ∀ found ∈ first :: rest, Discovery.Describes directory entries found ∧
    ∀ other, Discovery.Describes directory entries other →
      other.manifest.name = found.manifest.name →
        ByteOrder.bytes found.folder ≤ ByteOrder.bytes other.folder
  chain : (first :: rest ++ [first]).IsChain fun overrider target =>
    target.manifest.name ∈ overrider.manifest.overrides
  first_least : ∀ other ∈ rest, ByteOrder.bytes first.folder ≤ ByteOrder.bytes other.folder
  first_only : (entries.map Prod.fst).Nodup → ∀ other ∈ rest, first.folder ≠ other.folder
  /-- The names on the way can be read off the message. -/
  message_splits : ∃ way, fault.message =
    "Circular override dependency between DI modules: " ++ way ∧
      way.splitOn " -> " = fault.path

/-- No name has the blank in it with which the separator of the message begins. -/
theorem message_splits {first : String} {rest : List String} {fault : OverrideCycle}
    (path : fault.path = first :: rest) (valid : ∀ name ∈ fault.path, IsModuleName name) :
    ∃ way, fault.message = "Circular override dependency between DI modules: " ++ way ∧
      way.splitOn " -> " = fault.path := by
  refine ⟨" -> ".intercalate fault.path, rfl, ?_⟩
  have opens : " -> ".toList = ' ' :: ['-', '>', ' '] := rfl
  apply Splitting.splitOn_intercalate opens
  · exact path ▸ List.cons_ne_nil _ _
  · exact fun name member => (valid name member).no_blank

/-- A way that ends where it began has no other members. -/
theorem mem_of_mem_closed {α : Type} {first member : α} {rest : List α}
    (closed : member ∈ first :: rest ++ [first]) : member ∈ first :: rest := by
  rcases List.mem_append.mp closed with inside | last
  · exact inside
  · exact List.mem_singleton.mp last ▸ List.mem_cons_self

/-- A fault walks round a cycle of the folders that are retained, which are known by their
numbers. -/
structure NumberedWalk (kept : List ModuleFolder) (fault : OverrideCycle) (first : Nat)
    (rest : List Nat) : Prop where
  path_eq : fault.path = (first :: rest ++ [first]).map fun index =>
    (ModuleFolder.numbered kept index).manifest.name
  within : ∀ index ∈ first :: rest, index < kept.length
  distinct : (first :: rest).Nodup
  chain : ((first :: rest ++ [first]).map (ModuleFolder.numbered kept)).IsChain
    fun overrider target => target.manifest.name ∈ overrider.manifest.overrides
  first_least : ∀ other ∈ rest, first < other

/-- The walk that the graph of the overrides describes is one through the folders. -/
theorem exists_numberedWalk {contributions : List Contribution} {kept : List ModuleFolder}
    {provider : String}
    (retainedEq : retained contributions = kept.map (ModuleFolder.contribution provider))
    {fault : OverrideCycle} (refused : (resolve contributions).value = .error (.cycle fault)) :
    ∃ first rest, NumberedWalk kept fault first rest := by
  obtain ⟨-, cyclic, rfl⟩ := resolve_eq_cycle_iff.mp refused
  obtain ⟨first, rest, describes⟩ := exists_describes (resolutionGraph_consistent _) cyclic
  have roster : (Roster.ofContributions contributions).value.elements =
      (kept.map (ModuleFolder.contribution provider)).map Descriptor.ofContribution := by
    rw [Roster.elements_ofContributions, retainedEq]
  have within : ∀ index ∈ first :: rest, index < kept.length := by
    intro index member
    rw [← size_eq_length roster]
    exact ((mem_unresolved_iff (resolutionGraph_consistent _)).mp
      (describes.path_stuck index member)).1
  refine ⟨first, rest, ?_, within, describes.distinct, ?_, describes.first_least⟩
  · rw [describes.path_eq]
    exact List.map_congr_left fun index member =>
      name_numbered roster (within index (mem_of_mem_closed member))
  · rw [List.isChain_map]
    exact describes.chain.imp fun _ _ => mem_overrides_of_edge roster

/-- A walk by numbers is a walk round a cycle of manifests. -/
theorem NumberedWalk.walksRound {files : FileSystem} {directory : String}
    {entries : FileTree.Entries} (listed : files.list directory = .ok entries)
    (obey : ∀ found ∈ Discovery.moduleFolders files directory, found.manifest.Obeys)
    {fault : OverrideCycle} {first : Nat} {rest : List Nat}
    (walk : NumberedWalk (retainedFolders (Discovery.moduleFolders files directory)) fault first
      rest) : ∃ first rest, WalksRound directory entries fault first rest := by
  have sublist : (retainedFolders (Discovery.moduleFolders files directory)).Sublist
      (Discovery.moduleFolders files directory) := firsts_sublist _ _
  have names := nodup_map_firsts (fun found : ModuleFolder => found.manifest.name)
    (Discovery.moduleFolders files directory)
  rw [← retainedFolders, List.nodup_iff_pairwise_ne, List.pairwise_map] at names
  have ordered := Discovery.moduleFolders_sorted files directory
  generalize keptEq : retainedFolders (Discovery.moduleFolders files directory) = kept at *
  have among : ∀ index ∈ first :: rest,
      ModuleFolder.numbered kept index ∈ Discovery.moduleFolders files directory :=
    fun index member => sublist.subset (ModuleFolder.numbered_mem (walk.within index member))
  have path : fault.path = ((ModuleFolder.numbered kept first ::
      rest.map (ModuleFolder.numbered kept)) ++ [ModuleFolder.numbered kept first]).map
        fun found => found.manifest.name := by
    rw [walk.path_eq]
    simp
  refine ⟨ModuleFolder.numbered kept first, rest.map (ModuleFolder.numbered kept), ?_⟩
  constructor
  case path_eq => exact path
  case several =>
    intro alone
    have chain := walk.chain
    rw [List.map_eq_nil_iff.mp alone] at chain
    have itself := List.isChain_pair.mp chain
    exact ((obey _ (among first List.mem_cons_self)).targets _ itself).2 rfl
  case distinct =>
    rw [← List.map_cons, List.map_map]
    refine walk.distinct.map_on fun index member other otherMember same => ?_
    rcases Nat.lt_trichotomy index other with less | equal | more
    · exact (ModuleFolder.rel_numbered names less (walk.within other otherMember) same).elim
    · exact equal
    · exact (ModuleFolder.rel_numbered names more (walk.within index member) same.symm).elim
  case retained =>
    intro found member
    rw [← List.map_cons] at member
    obtain ⟨index, onWay, rfl⟩ := List.mem_map.mp member
    refine ⟨(Discovery.mem_moduleFolders_iff_describes listed).mp (among index onWay), ?_⟩
    intro other described named
    rw [← ByteOrder.le_iff_bytes_le]
    refine least_of_mem_retainedFolders (ordered.imp ByteOrder.le_iff_bytes_le.mpr) ?_ other
      ((Discovery.mem_moduleFolders_iff_describes listed).mpr described) named
    rw [keptEq]
    exact ModuleFolder.numbered_mem (walk.within index onWay)
  case chain => simpa using walk.chain
  case first_least =>
    intro other member
    obtain ⟨index, onWay, rfl⟩ := List.mem_map.mp member
    exact ModuleFolder.rel_numbered (ordered.sublist sublist) (walk.first_least index onWay)
      (walk.within index (List.mem_cons_of_mem _ onWay))
  case first_only =>
    intro once other member
    obtain ⟨index, onWay, rfl⟩ := List.mem_map.mp member
    have strict := (Discovery.moduleFolders_strict listed once).sublist sublist
    exact String.ne_of_lt (ModuleFolder.rel_numbered strict (walk.first_least index onWay)
      (walk.within index (List.mem_cons_of_mem _ onWay)))
  case message_splits =>
    refine message_splits path fun name member => ?_
    rw [walk.path_eq] at member
    obtain ⟨index, onWay, rfl⟩ := List.mem_map.mp member
    exact (obey _ (among index (mem_of_mem_closed onWay))).name

/-- Without other contributions, a directory resolves to what its manifests contribute. -/
theorem value_resolved_directory (files : FileSystem) (directory : String) :
    ((Assembly.empty.discover (.directory directory)).resolved files).value =
      match (Discovery.fromDirectory files directory).value with
      | .error fault => .error (.discovery fault)
      | .ok contributions => (resolve contributions).value := by
  have leaves : (Assembly.empty.discover (.directory directory)).leaves = [.directory directory] :=
    rfl
  rw [Assembly.value_resolved, Assembly.value_collected, leaves, Discovery.runAll_singleton]
  cases discovered : (Discovery.fromDirectory files directory).value with
  | error fault => rw [Discovery.run, discovered]
  | ok contributions =>
      rw [Discovery.run, discovered, Discovery.fromDirectory_eq_ok discovered]
      exact congrArg (fun all => (resolve all).value) ModuleFolder.collect_contributions

/-- No manifest that overrides itself is discovered, and where the manifests below a directory alone
resolve to a cycle, the fault walks round it: through several manifests, each known by its name. -/
theorem manifestCycles_unambiguous (files : FileSystem) (directory : String) :
    (∀ contributions, (Discovery.fromDirectory files directory).value = .ok contributions →
      ∀ contribution ∈ contributions, ¬ contribution.Declares contribution) ∧
    ∀ fault, ((Assembly.empty.discover (.directory directory)).resolved files).value =
      .error (.cycle fault) →
        ∃ entries first rest, files.list directory = .ok entries ∧
          WalksRound directory entries fault first rest := by
  constructor
  · intro contributions discovered contribution member
    rw [Discovery.fromDirectory_eq_ok discovered] at member
    obtain ⟨found, inside, rfl⟩ := List.mem_map.mp member
    rw [ModuleFolder.declares_contribution_iff]
    intro itself
    exact ((Discovery.obeys_of_discovered discovered inside).targets _ itself).2 rfl
  · intro fault refused
    rw [value_resolved_directory] at refused
    cases discovered : (Discovery.fromDirectory files directory).value with
    | error fault =>
        rw [discovered] at refused
        cases refused
    | ok contributions =>
        rw [discovered] at refused
        dsimp only at refused
        have found := Discovery.fromDirectory_eq_ok discovered
        cases listed : files.list directory with
        | error fault =>
            rw [found, Discovery.moduleFolders, listed, List.map_nil, value_resolve_nil] at refused
            cases refused
        | ok entries =>
            have kept := found ▸ ModuleFolder.retained_contributions
            obtain ⟨first, rest, walk⟩ := exists_numberedWalk kept refused
            obtain ⟨first, rest, around⟩ := walk.walksRound listed fun folder member =>
              Discovery.obeys_of_discovered discovered member
            exact ⟨entries, first, rest, rfl, around⟩

/-- Whether an outcome is that modules override each other in a circle. -/
def endsInCycle {α : Type} : Except Fault α → Bool
  | .error (.cycle _) => true
  | _ => false

/-- Two folders whose manifests override each other. -/
theorem cycle_of_two_manifests :
    let manifest (text : String) : FileTree := .file text.toUTF8
    let entries : FileTree.Entries := [
      ("a", .folder [(Discovery.manifestFile, manifest "name = \"x\"\noverrides = [\"y\"]")]),
      ("b", .folder [(Discovery.manifestFile, manifest "name = \"y\"\noverrides = [\"x\"]")])]
    let files : FileSystem := ⟨.folder [("m", .folder entries)], []⟩
    ∃ fault first rest,
      ((Assembly.empty.discover (.directory "m")).resolved files).value = .error (.cycle fault) ∧
        WalksRound "m" entries fault first rest := by
  intro manifest entries files
  have listed : files.list "m" = .ok entries :=
    FileSystem.list_of_child (FileSystem.isPath_iff.mpr (by decide +kernel)) (by decide) (by decide)
      (by decide) rfl
  have holders : Discovery.holders "m" entries = [
      ("a", manifest "name = \"x\"\noverrides = [\"y\"]"),
      ("b", manifest "name = \"y\"\noverrides = [\"x\"]")] := by
    have sorted : Discovery.byName entries = entries := List.mergeSort_of_pairwise (by decide)
    have paths : ∀ name ∈ ["a", "b"], FileSystem.isPath (Discovery.join "m" name) = true ∧
        FileSystem.isPath (Discovery.join (Discovery.join "m" name) Discovery.manifestFile) =
          true := by
      simp only [FileSystem.isPath_iff]
      decide +kernel
    rw [Discovery.holders, sorted]
    simp [entries, Discovery.holder?, Discovery.manifestNode?, Discovery.manifestIn?,
      FileTree.child?, paths]
  have cyclic :
      endsInCycle ((Assembly.empty.discover (.directory "m")).resolved files).value = true := by
    rw [value_resolved_directory, Discovery.fromDirectory, Journaled.value_bind,
      Discovery.value_manifests listed, holders]
    decide +kernel
  cases outcome : ((Assembly.empty.discover (.directory "m")).resolved files).value with
  | ok effective =>
      rw [outcome] at cyclic
      cases cyclic
  | error fault =>
      rw [outcome] at cyclic
      cases fault with
      | cycle fault =>
          obtain ⟨others, first, rest, same, walk⟩ :=
            (manifestCycles_unambiguous files "m").2 fault outcome
          cases listed.symm.trans same
          exact ⟨fault, first, rest, rfl, walk⟩
      | doubleOverride fault => cases cyclic
      | discovery fault => cases cyclic
      | manifest text => cases cyclic

end Overlay
