import Overlay.Proofs.Enumeration

/-!
# Folders that are retained

Several folders below a directory may have manifests of one name.  The first of them is retained,
and which folders that are is said here by the files alone.  What is contributed for a folder
tells its manifest, so folders that are retained override each other as their contributions do.
-/

namespace Overlay

open Declared Relation

namespace Discovery

/-- A folder below a directory describes a module. -/
def DescribesBelow (files : FileSystem) (directory : String) (found : ModuleFolder) : Prop :=
  ∃ entries, files.list directory = .ok entries ∧ Describes directory entries found

/-- Of the folders that describe one module the first is retained.  Folders are in the order of the
bytes of their names. -/
structure Retains (files : FileSystem) (directory : String) (kept : List ModuleFolder) :
    Prop where
  describes : ∀ found ∈ kept, DescribesBelow files directory found
  distinct : (kept.map fun found => found.manifest.name).Nodup
  first : ∀ other, DescribesBelow files directory other → ∃ found ∈ kept,
    found.manifest.name = other.manifest.name ∧
      ByteOrder.bytes found.folder ≤ ByteOrder.bytes other.folder
  sorted : kept.Pairwise fun left right =>
    ByteOrder.bytes left.folder ≤ ByteOrder.bytes right.folder

theorem retains_retainedFolders (files : FileSystem) (directory : String) :
    Retains files directory (retainedFolders (moduleFolders files directory)) := by
  have sublist : (retainedFolders (moduleFolders files directory)).Sublist
      (moduleFolders files directory) := firsts_sublist _ _
  have sorted := moduleFolders_sorted files directory
  constructor
  case describes => exact fun found member => mem_moduleFolders_iff.mp (sublist.subset member)
  case distinct => exact nodup_map_firsts _ _
  case first =>
    intro other below
    have member := mem_moduleFolders_iff.mpr below
    obtain ⟨found, kept, same⟩ := List.mem_map.mp
      (mem_map_firsts_iff.mpr (List.mem_map_of_mem (f := fun each : ModuleFolder =>
        each.manifest.name) member))
    refine ⟨found, kept, same, ByteOrder.le_iff_bytes_le.mp ?_⟩
    exact least_of_mem_retainedFolders (sorted.imp ByteOrder.le_iff_bytes_le.mpr) kept other member
      same.symm
  case sorted => exact sorted.sublist sublist

/-- When no two entries have one name, a folder describes one module. -/
theorem eq_of_describesBelow {files : FileSystem} {directory : String}
    {entries : FileTree.Entries} (listed : files.list directory = .ok entries)
    (distinct : (entries.map Prod.fst).Nodup) {found other : ModuleFolder}
    (below : DescribesBelow files directory found)
    (otherBelow : DescribesBelow files directory other) (same : found.folder = other.folder) :
    found = other := by
  have once : ((moduleFolders files directory).map ModuleFolder.folder).Nodup :=
    List.pairwise_map.mpr ((moduleFolders_strict listed distinct).imp fun less =>
      String.ne_of_lt less)
  exact List.inj_on_of_nodup_map once (mem_moduleFolders_iff.mpr below)
    (mem_moduleFolders_iff.mpr otherBelow) same

namespace Retains

variable {files : FileSystem} {directory : String} {entries : FileTree.Entries}
  (listed : files.list directory = .ok entries) (distinct : (entries.map Prod.fst).Nodup)
  {kept others : List ModuleFolder} (retains : Retains files directory kept)
include listed distinct retains

theorem strict : kept.Pairwise fun lower upper => lower.folder < upper.folder := by
  have different := List.pairwise_map.mp retains.distinct
  refine (different.and retains.sorted).imp_of_mem ?_
  rintro lower upper lowerMember upperMember ⟨different, ordered⟩
  have ordered := ByteOrder.le_iff_bytes_le.mpr ordered
  refine String.not_le.mp fun reversed => different ?_
  have same := String.le_antisymm ordered reversed
  rw [eq_of_describesBelow listed distinct (retains.describes lower lowerMember)
    (retains.describes upper upperMember) same]

theorem subset (alsoRetains : Retains files directory others) : kept ⊆ others := by
  intro found member
  have below := retains.describes found member
  obtain ⟨other, otherMember, named, before⟩ := alsoRetains.first found below
  have otherBelow := alsoRetains.describes other otherMember
  obtain ⟨again, againMember, namedAgain, behind⟩ := retains.first other otherBelow
  cases List.inj_on_of_nodup_map retains.distinct againMember member (namedAgain.trans named)
  have same := String.le_antisymm (ByteOrder.le_iff_bytes_le.mpr behind)
    (ByteOrder.le_iff_bytes_le.mpr before)
  rw [eq_of_describesBelow listed distinct below otherBelow same]
  exact otherMember

/-- When no two entries have one name, it is determined which folders are retained. -/
theorem unique (alsoRetains : Retains files directory others) : kept = others := by
  have antisymm : Std.Antisymm fun lower upper : ModuleFolder => lower.folder < upper.folder :=
    ⟨fun _ _ less more => (String.lt_asymm less more).elim⟩
  have irrefl : Std.Irrefl fun lower upper : ModuleFolder => lower.folder < upper.folder :=
    ⟨fun _ less => String.lt_irrefl _ less⟩
  refine (retains.strict listed distinct).eq_of_mem_iff (alsoRetains.strict listed distinct) ?_
  intro found
  exact ⟨fun member => retains.subset listed distinct alsoRetains member,
    fun member => alsoRetains.subset listed distinct retains member⟩

end Retains

end Discovery

namespace ModuleFolder

/-- One of the retained manifests lists the module of another one. -/
def Overrides (kept : List ModuleFolder) (overrider target : ModuleFolder) : Prop :=
  overrider ∈ kept ∧ target ∈ kept ∧ target.manifest.name ∈ overrider.manifest.overrides

section Contributions

variable {kept : List ModuleFolder} {provider : String}

theorem overrides_contributions (overrider target : ModuleFolder)
    (overrides : Overrides kept overrider target) :
    Declared.Overrides (kept.map (contribution provider)) (overrider.contribution provider)
      (target.contribution provider) :=
  ⟨List.mem_map_of_mem overrides.1, List.mem_map_of_mem overrides.2.1,
    declares_contribution_iff.mpr overrides.2.2⟩

theorem exists_overrides_of_contributions {overrider target : Contribution}
    (overrides : Declared.Overrides (kept.map (contribution provider)) overrider target) :
    ∃ lower upper, overrider = upper.contribution provider ∧
      target = lower.contribution provider ∧ Overrides kept upper lower := by
  obtain ⟨overriderMember, targetMember, declares⟩ := overrides
  obtain ⟨upper, upperKept, rfl⟩ := List.mem_map.mp overriderMember
  obtain ⟨lower, lowerKept, rfl⟩ := List.mem_map.mp targetMember
  exact ⟨lower, upper, rfl, rfl, upperKept, lowerKept, declares_contribution_iff.mp declares⟩

variable (distinct : (kept.map fun found => found.manifest.name).Nodup)
include distinct

/-- Retained manifests are told apart by what they contribute. -/
theorem eq_of_contribution_eq {found other : ModuleFolder} (member : found ∈ kept)
    (otherMember : other ∈ kept)
    (same : found.contribution provider = other.contribution provider) : found = other := by
  have names := congrArg Contribution.moduleName same
  rw [moduleName_contribution, moduleName_contribution] at names
  exact List.inj_on_of_nodup_map distinct member otherMember names

theorem singlyOverridden_contributions_iff :
    SinglyOverridden (kept.map (contribution provider)) ↔
      ∀ first second target, Overrides kept first target → Overrides kept second target →
        first = second := by
  constructor
  · intro single first second target one another
    have same := single _ _ _ (overrides_contributions first target one)
      (overrides_contributions second target another)
    exact eq_of_contribution_eq distinct one.1 another.1 same
  · intro single first second target one another
    obtain ⟨lower, upper, rfl, rfl, step⟩ := exists_overrides_of_contributions one
    obtain ⟨also, other, rfl, same, otherStep⟩ := exists_overrides_of_contributions another
    cases eq_of_contribution_eq distinct step.2.1 otherStep.2.1 same
    rw [single upper other lower step otherStep]

theorem cyclic_contributions_iff :
    Cyclic (kept.map (contribution provider)) ↔
      ∃ found, TransGen (Overrides kept) found found := by
  constructor
  · rintro ⟨module, around⟩
    -- Every step between contributions is one between the manifests that make them.
    have back : ∀ {start finish}, TransGen
        (Declared.Overrides (kept.map (contribution provider))) start finish →
          ∃ upper lower, upper ∈ kept ∧ lower ∈ kept ∧ start = upper.contribution provider ∧
            finish = lower.contribution provider ∧ TransGen (Overrides kept) upper lower := by
      intro start finish path
      induction path with
      | single edge =>
          obtain ⟨lower, upper, rfl, rfl, step⟩ := exists_overrides_of_contributions edge
          exact ⟨upper, lower, step.1, step.2.1, rfl, rfl, .single step⟩
      | tail _ edge ih =>
          obtain ⟨upper, middle, upperKept, middleKept, from_, to_, path⟩ := ih
          obtain ⟨lower, also, same, rfl, step⟩ := exists_overrides_of_contributions edge
          cases eq_of_contribution_eq distinct step.1 middleKept (same.symm.trans to_)
          exact ⟨upper, lower, upperKept, step.2.1, from_, rfl, path.tail step⟩
    obtain ⟨upper, lower, upperKept, lowerKept, from_, to_, path⟩ := back around
    cases eq_of_contribution_eq distinct upperKept lowerKept (from_.symm.trans to_)
    exact ⟨upper, path⟩
  · rintro ⟨found, around⟩
    exact ⟨_, around.lift _ overrides_contributions⟩

end Contributions

end ModuleFolder

end Overlay
