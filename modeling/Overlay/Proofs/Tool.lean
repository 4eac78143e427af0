import Overlay.CommandLine.Tool
import Overlay.Proofs.Bindings
import Overlay.Proofs.JsonText
import Overlay.Proofs.Precedence
import Overlay.Proofs.RetainedFolders
import Overlay.Proofs.SettingsLayers

/-!
# What a run of the tool accounts for

A run ends in one of three ways: its settings cannot be used, its modules cannot be resolved, or
it prints them.  What it prints as JSON is read back here, by the names of the fields, and
accounts for every manifest below the modules directory: each name is a layer of one record.
-/

namespace Overlay

open Declared OverrideGraph Relation

namespace Tool

/-! ## Settings in force -/

/-- The settings that file, environment and arguments make together, if they do not contradict
themselves. -/
def InForce (files : FileSystem) (environment : Environment) (arguments : Arguments)
    (settings : Settings) : Prop :=
  ∃ base, Starts files arguments.config base ∧ Layered base environment arguments settings ∧
    ¬ settings.LacksDirectory ∧ ¬ settings.HasBlankFilter

/-- No settings can be loaded from the file, or what comes out in the end contradicts itself. -/
inductive Unusable (files : FileSystem) (environment : Environment) (arguments : Arguments) :
    Prop where
  | unloadable {path : String} {fault : SettingsFault} (given : arguments.config = some path)
      (reason : Settings.Unloadable files path fault)
  | contradictory {base settings : Settings} (starts : Starts files arguments.config base)
      (layered : Layered base environment arguments settings)
      (reason : settings.LacksDirectory ∨ settings.HasBlankFilter)

section Loading

variable {files : FileSystem} {environment : Environment} {arguments : Arguments}

theorem loadSettings_eq_ok_iff {settings : Settings} :
    loadSettings files environment arguments = .ok settings ↔
      InForce files environment arguments settings := by
  constructor
  · intro loaded
    rw [loadSettings] at loaded
    cases found : fileSettings files arguments with
    | error fault =>
        rw [found] at loaded
        cases loaded
    | ok base =>
        rw [found] at loaded
        obtain ⟨rfl, acceptable⟩ := ((Settings.judged_check _).accepted settings).mp loaded
        exact ⟨base, fileSettings_eq_ok_iff.mp found, layered_withArguments _ _ _, acceptable⟩
  · rintro ⟨base, starts, layered, acceptable⟩
    have same := layered.unique (layered_withArguments base environment arguments)
    rw [loadSettings, fileSettings_eq_ok_iff.mpr starts]
    exact ((Settings.judged_check _).accepted settings).mpr ⟨same, same ▸ acceptable⟩

theorem InForce.unique {settings other : Settings}
    (inForce : InForce files environment arguments settings)
    (alsoInForce : InForce files environment arguments other) : other = settings :=
  Except.ok.inj ((loadSettings_eq_ok_iff.mpr alsoInForce).symm.trans
    (loadSettings_eq_ok_iff.mpr inForce))

theorem unusable_iff :
    Unusable files environment arguments ↔
      ¬ ∃ settings, InForce files environment arguments settings := by
  constructor
  · rintro unusable ⟨other, inForce⟩
    cases unusable with
    | unloadable given reason =>
        have failed := loadSettings_of_unloadable given reason environment
        cases failed.symm.trans (loadSettings_eq_ok_iff.mpr inForce)
    | contradictory starts layered reason =>
        obtain ⟨base, alsoStarts, alsoLayered, directory, filter⟩ := inForce
        cases (fileSettings_eq_ok_iff.mpr starts).symm.trans
          (fileSettings_eq_ok_iff.mpr alsoStarts)
        rw [layered.unique alsoLayered] at reason
        exact reason.elim directory filter
  · intro none
    have judged : ∀ base, Starts files arguments.config base →
        Unusable files environment arguments := by
      intro base starts
      have layered := layered_withArguments base environment arguments
      apply Unusable.contradictory starts layered
      by_contra fine
      rw [not_or] at fine
      exact none ⟨_, base, starts, layered, fine⟩
    cases config : arguments.config with
    | none => exact judged {} (config ▸ .defaults)
    | some path =>
        rcases Settings.writtenIn_or_unloadable files path with ⟨base, written⟩ | ⟨fault, reason⟩
        · exact judged base (config ▸ .file written)
        · exact .unloadable config reason

end Loading

/-! ## Modules that resolve -/

/-- What the manifests below a directory contribute. -/
def contributed (files : FileSystem) (directory : String) : List Contribution :=
  (Discovery.moduleFolders files directory).map
    (ModuleFolder.contribution (Discovery.directoryProvider directory))

/-- Modules are to load by themselves, but a manifest is not accepted or the directory cannot be
listed, or a module retained has two overriders, or some override each other in a circle. -/
def Fails (files : FileSystem) (settings : Settings) (kept : List ModuleFolder) : Prop :=
  settings.modules.autoLoad = true ∧
    (¬ Discovery.Discoverable files settings.modules.directory ∨
      (∃ first second target, ModuleFolder.Overrides kept first target ∧
        ModuleFolder.Overrides kept second target ∧ first ≠ second) ∨
      ∃ found, TransGen (ModuleFolder.Overrides kept) found found)

/-- The folders retained of the modules directory. -/
def keptFolders (files : FileSystem) (settings : Settings) : List ModuleFolder :=
  retainedFolders (Discovery.moduleFolders files settings.modules.directory)

theorem retained_contributed (files : FileSystem) (directory : String) :
    retained (contributed files directory) =
      (retainedFolders (Discovery.moduleFolders files directory)).map
        (ModuleFolder.contribution (Discovery.directoryProvider directory)) :=
  ModuleFolder.retained_contributions

section Resolving

variable {files : FileSystem} {settings : Settings}

/-- Without registrations everything comes from the modules directory. -/
theorem value_collected_ofSettings (on : settings.modules.autoLoad = true) :
    ((Assembly.ofSettings [] settings).collected files).value =
      match (Discovery.manifests files settings.modules.directory).value with
      | .error fault => .error (.discovery fault)
      | .ok _ => .ok (contributed files settings.modules.directory) := by
  have leaves : (Assembly.ofSettings [] settings).leaves =
      [.registered [], .directory settings.modules.directory] := by
    rw [Assembly.ofSettings, if_pos on]
    rfl
  have gathered : (Assembly.ofSettings [] settings).collector = .empty := by
    rw [Assembly.ofSettings, if_pos on]
    rfl
  have unregistered : (Discovery.run files (.registered [])).value = .ok [] := by
    rw [Discovery.run, Discovery.fromRegistrations, Discovery.byLabel, List.mergeSort_nil]
    rfl
  rw [Assembly.value_collected, leaves, gathered, Discovery.runAll_cons, Discovery.joined,
    unregistered, Discovery.runAll_singleton]
  simp only [Discovery.run, Discovery.fromDirectory_eq, Journaled.value_bind]
  cases outcome : (Discovery.manifests files settings.modules.directory).value with
  | error fault => rfl
  | ok found =>
      have contributions : collect [] [] (contributed files settings.modules.directory) =
          contributed files settings.modules.directory := ModuleFolder.collect_contributions
      rw [← contributions, contributed, Discovery.manifests_eq_ok outcome]
      simp only [List.map_map]
      rfl

theorem resolveWith_of_off (off : settings.modules.autoLoad = false) :
    resolveWith [] files settings = .ok [] := by
  have plain : Assembly.ofSettings [] settings =
      { Assembly.empty with reportDeprecated := settings.modules.reportDeprecated } := by
    rw [Assembly.ofSettings, off]
    rfl
  rw [resolveWith, plain, Assembly.value_resolved]
  exact value_resolve_nil

theorem resolveWith_of_on (on : settings.modules.autoLoad = true) :
    resolveWith [] files settings =
      match (Discovery.manifests files settings.modules.directory).value with
      | .error fault => .error (.discovery fault)
      | .ok _ => (resolve (contributed files settings.modules.directory)).value := by
  rw [resolveWith, Assembly.value_resolved, value_collected_ofSettings on]
  cases (Discovery.manifests files settings.modules.directory).value with
  | error fault => rfl
  | ok found => rfl

/-- Of a directory whose manifests are acceptable, what they contribute is resolved. -/
theorem resolveWith_of_discoverable (on : settings.modules.autoLoad = true)
    (discoverable : Discovery.Discoverable files settings.modules.directory) :
    resolveWith [] files settings =
      (resolve (contributed files settings.modules.directory)).value := by
  obtain ⟨found, outcome⟩ := (Discovery.exists_manifests_iff files _).mpr discoverable
  rw [resolveWith_of_on on, outcome]

theorem exists_resolveWith_iff (files : FileSystem) (settings : Settings) :
    (∃ effective, resolveWith [] files settings = .ok effective) ↔
      ¬ Fails files settings (keptFolders files settings) := by
  have distinct : ((keptFolders files settings).map fun found => found.manifest.name).Nodup :=
    nodup_map_firsts _ _
  rw [Fails]
  cases on : settings.modules.autoLoad with
  | false => exact iff_of_true ⟨[], resolveWith_of_off on⟩ (by simp)
  | true =>
      by_cases discoverable : Discovery.Discoverable files settings.modules.directory
      case pos =>
        rw [resolveWith_of_discoverable on discoverable, exists_resolved_iff, retained_contributed,
          ← keptFolders, ModuleFolder.singlyOverridden_contributions_iff distinct,
          ModuleFolder.cyclic_contributions_iff distinct]
        simp only [true_and, discoverable, not_true_eq_false, false_or, not_or, not_exists, not_and,
          not_not]
      refine iff_of_false ?_ (by simp [discoverable])
      rintro ⟨effective, resolved⟩
      rw [← Discovery.exists_manifests_iff] at discoverable
      rw [resolveWith_of_on on] at resolved
      cases outcome : (Discovery.manifests files settings.modules.directory).value with
      | error fault =>
          rw [outcome] at resolved
          cases resolved
      | ok found => exact discoverable ⟨found, outcome⟩

end Resolving

end Tool

/-! ## Layers of what resolves -/

section Layers

variable {contributions : List Contribution} {effective : List EffectiveModule}
  (resolved : (resolve contributions).value = .ok effective)
include resolved

/-- Every retained module is a layer of one effective module, and nothing else is. -/
theorem layers_perm_of_resolved :
    (effective.flatMap EffectiveModule.layers).Perm
      ((retained contributions).map Contribution.moduleName) := by
  obtain ⟨order, _, loadOrder, layers⟩ := layers_resolved resolved
  have names := congrArg (List.map Prod.fst) layers
  rw [List.map_flatMap, List.map_map] at names
  have each : effective.flatMap EffectiveModule.layers =
      (order.map (pick (retained contributions))).map Contribution.moduleName := names
  rw [each]
  exact (map_pick_perm loadOrder).map _

theorem names_of_resolved :
    effective.map EffectiveModule.name =
      (outermost (retained contributions)).map Contribution.moduleName := by
  have folds := (folds_of_resolved resolved).2.2
  exact (map_eq_of_forall₂ (folds.imp fun module effect folded =>
    (takesEffect_of_foldsTo folded).name.symm)).symm

/-- An effective module is named by its last layer. -/
theorem getLast?_layers_of_resolved {effect : EffectiveModule} (member : effect ∈ effective) :
    effect.layers.getLast? = some effect.name := by
  have folds := (folds_of_resolved resolved).2.2
  obtain ⟨module, folded⟩ : ∃ module, FoldsTo Descriptor.ofContribution
      (bases (retained contributions)) module effect := by
    obtain ⟨place, within, rfl⟩ := List.getElem_of_mem member
    exact ⟨_, folds.get (folds.length_eq ▸ within) within⟩
  cases folded with
  | layered below =>
      rw [EffectiveModule.layers, EffectiveModule.layers_layered, List.map_append,
        List.map_singleton, List.getLast?_concat]
      rfl

end Layers

/-! ## Reading back what is printed -/

namespace Json

/-- The value of the first member with a name. -/
def member? (name : String) : Json → Option Json
  | .object members => (members.find? fun member => member.1 = .plain name).map Prod.snd
  | _ => none

/-- The items of an array. -/
def items? : Json → Option (List Json)
  | .array items => some items
  | _ => none

/-- The characters of a string. -/
def text? : Json → Option String
  | .string text => text.value?
  | _ => none

end Json

/-- What a printed record says about a module. -/
structure PrintedModule where
  name : String
  layers : List String
  deriving DecidableEq

namespace PrintedModule

/-- The module of a record. -/
def ofJson? (record : Json) : Option PrintedModule := do
  let name ← (← record.member? "name").text?
  let layers ← (← (← record.member? "layers").items?).mapM Json.text?
  some ⟨name, layers⟩

/-- The modules of the records in a text. -/
def ofOutput? (output : String) : Option (List PrintedModule) := do
  (← (← Json.parse? output).items?).mapM ofJson?

/-- What is printed of an effective module. -/
def ofEffective (module : EffectiveModule) : PrintedModule := ⟨module.name, module.layers⟩

theorem ofJson?_toRecord (module : EffectiveModule) :
    ofJson? (Tool.toRecord module) = some (ofEffective module) := by
  have named : (Tool.toRecord module).member? "name" = some (.text module.name) := by
    simp [Tool.toRecord, Json.record, Json.member?]
  have layered : (Tool.toRecord module).member? "layers" =
      some (.array (module.layers.map .text)) := by
    simp [Tool.toRecord, Json.record, Json.member?]
  have text : ∀ name, (Json.text name).text? = some (id name) := fun _ => rfl
  rw [ofJson?, named, layered]
  simp only [Option.bind_eq_bind, Option.bind_some, Json.items?,
    Json.mapM_map_eq_some fun name _ => text name, List.map_id_fun, id]
  rfl

theorem plain_toRecord (module : EffectiveModule) : (Tool.toRecord module).Plain := by
  have description := Json.plain_optionalText module.description
  have layers : (Json.array (module.layers.map .text)).Plain := by
    refine .array fun layer listed => ?_
    obtain ⟨name, _, rfl⟩ := List.mem_map.mp listed
    exact .text name
  apply Json.plain_record
  simp only [List.forall_mem_cons]
  refine ⟨?configs, .bool _, description, layers, .text _, .text _, fun _ none =>
    (List.not_mem_nil none).elim⟩
  case configs =>
    refine Json.plain_record fun member listed => ?_
    obtain ⟨entry, _, rfl⟩ := List.mem_map.mp listed
    exact .text entry.2

/-- What is printed as JSON says which effective modules there are. -/
theorem ofOutput?_renderJson (modules : List EffectiveModule) :
    ofOutput? (Tool.renderJson modules ++ "\n") = some (modules.map ofEffective) := by
  have plain : (Json.array (modules.map Tool.toRecord)).Plain := by
    refine .array fun record listed => ?_
    obtain ⟨module, _, rfl⟩ := List.mem_map.mp listed
    exact plain_toRecord module
  have blank : Json.Blank ['\n'] := fun char same => .inr (.inl (List.mem_singleton.mp same))
  have parsed : Json.parse? (Tool.renderJson modules ++ "\n") =
      some (.array (modules.map Tool.toRecord)) := Json.parse?_render plain blank
  rw [ofOutput?, parsed]
  exact Json.mapM_map_eq_some fun module _ => ofJson?_toRecord module

end PrintedModule

/-! ## What a run accounts for -/

/-- Printed modules account for the manifests below a directory, of which some are retained. -/
structure AccountsFor (files : FileSystem) (directory : String) (kept : List ModuleFolder)
    (printed : List PrintedModule) : Prop where
  /-- No manifest is left out of account. -/
  read : ∀ entries, files.list directory = .ok entries → ∀ folder node,
    Discovery.HasManifest directory entries folder node → ∃ manifest,
      Discovery.Accepted node manifest ∧ manifest.name ∈ printed.flatMap PrintedModule.layers
  once : (printed.flatMap PrintedModule.layers).Nodup
  every : ∀ name, name ∈ printed.flatMap PrintedModule.layers ↔
    ∃ found, Discovery.DescribesBelow files directory found ∧ found.manifest.name = name
  outermost : ∀ name, name ∈ printed.map PrintedModule.name ↔
    ∃ found ∈ kept, found.manifest.name = name ∧
      ∀ other ∈ kept, name ∉ other.manifest.overrides
  last : ∀ record ∈ printed, record.layers.getLast? = some record.name
  ordered : ∃ outer : List ModuleFolder, outer.Sublist kept ∧
    printed.map PrintedModule.name = outer.map (fun found => found.manifest.name) ∧
    outer.Pairwise fun left right =>
      ByteOrder.bytes left.folder ≤ ByteOrder.bytes right.folder

section Contributed

variable {files : FileSystem} {directory : String} {effective : List EffectiveModule}
  (resolved : (resolve (Tool.contributed files directory)).value = .ok effective)
include resolved

/-- The names of the manifests that are retained are the layers. -/
theorem layers_perm_of_contributed :
    ((effective.map PrintedModule.ofEffective).flatMap PrintedModule.layers).Perm
      ((retainedFolders (Discovery.moduleFolders files directory)).map
        fun found => found.manifest.name) := by
  have perm := layers_perm_of_resolved resolved
  rw [Tool.retained_contributed, List.map_map] at perm
  rw [List.flatMap_map]
  refine perm.trans (.of_eq (List.map_congr_left fun found _ => ?_))
  exact ModuleFolder.moduleName_contribution

/-- The names of the manifests that no retained one lists are those of the modules. -/
theorem names_of_contributed :
    (effective.map PrintedModule.ofEffective).map PrintedModule.name =
      ((retainedFolders (Discovery.moduleFolders files directory)).filter fun found =>
        ∀ other ∈ retainedFolders (Discovery.moduleFolders files directory),
          found.manifest.name ∉ other.manifest.overrides).map
            fun found => found.manifest.name := by
  have named := names_of_resolved resolved
  rw [Tool.retained_contributed, ModuleFolder.outermost_contributions, List.map_map] at named
  rw [List.map_map]
  refine named.trans (List.map_congr_left fun found _ => ?_)
  exact ModuleFolder.moduleName_contribution

theorem accountsFor_of_resolved (discoverable : Discovery.Discoverable files directory) :
    AccountsFor files directory (retainedFolders (Discovery.moduleFolders files directory))
      (effective.map PrintedModule.ofEffective) := by
  have retains := Discovery.retains_retainedFolders files directory
  have layers := layers_perm_of_contributed resolved
  have names := names_of_contributed resolved
  generalize retainedFolders (Discovery.moduleFolders files directory) = kept at *
  have every : ∀ name, name ∈ (effective.map PrintedModule.ofEffective).flatMap
      PrintedModule.layers ↔
        ∃ found, Discovery.DescribesBelow files directory found ∧ found.manifest.name = name := by
    intro name
    rw [layers.mem_iff, List.mem_map]
    constructor
    · rintro ⟨found, member, rfl⟩
      exact ⟨found, retains.describes found member, rfl⟩
    · rintro ⟨other, below, rfl⟩
      obtain ⟨found, member, same, -⟩ := retains.first other below
      exact ⟨found, member, same⟩
  constructor
  case read =>
    intro entries listed folder node holds
    obtain ⟨others, same, accepted⟩ := discoverable (Discovery.isPresent_of_listed listed)
    cases listed.symm.trans same
    obtain ⟨manifest, accepted⟩ := accepted folder node holds
    refine ⟨manifest, accepted, (every _).mpr ⟨⟨folder, manifest⟩, ?_, rfl⟩⟩
    exact ⟨entries, listed, node, holds, accepted.written⟩
  case once => exact layers.nodup_iff.mpr retains.distinct
  case every => exact every
  case outermost =>
    intro name
    rw [names, List.mem_map]
    simp only [List.mem_filter, decide_eq_true_eq, and_assoc]
    refine exists_congr fun found => and_congr_right fun _ => ?_
    constructor
    · rintro ⟨unlisted, rfl⟩
      exact ⟨rfl, unlisted⟩
    · rintro ⟨rfl, unlisted⟩
      exact ⟨unlisted, rfl⟩
  case last =>
    intro record listed
    obtain ⟨effect, member, rfl⟩ := List.mem_map.mp listed
    exact getLast?_layers_of_resolved resolved member
  case ordered => exact ⟨_, List.filter_sublist, names, retains.sorted.sublist List.filter_sublist⟩

end Contributed

namespace Tool

/-- How an outcome accounts for a run with some arguments, when some folders of the modules
directory are retained. -/
structure Accounted (files : FileSystem) (environment : Environment) (arguments : Arguments)
    (kept : List ModuleFolder) (outcome : Outcome) : Prop where
  retained : ∀ settings, InForce files environment arguments settings →
    Discovery.Retains files settings.modules.directory kept
  unusable : outcome.status = 2 ↔ Unusable files environment arguments
  failed : outcome.status = 1 ↔
    ∃ settings, InForce files environment arguments settings ∧ Fails files settings kept
  succeeded : outcome.status = 0 ↔
    ∃ settings, InForce files environment arguments settings ∧ ¬ Fails files settings kept
  silent : outcome.status ≠ 0 → outcome.output = ""
  /-- Modules that load by themselves account for all manifests. -/
  loaded : ∀ settings, InForce files environment arguments settings →
    settings.modules.autoLoad = true → arguments.format = some .json → outcome.status = 0 →
      ∃ printed, PrintedModule.ofOutput? outcome.output = some printed ∧
        AccountsFor files settings.modules.directory kept printed
  /-- Without them nothing fails, and nothing is printed. -/
  unloaded : ∀ settings, InForce files environment arguments settings →
    settings.modules.autoLoad = false → outcome.status = 0 ∧
      (arguments.format = some .json → PrintedModule.ofOutput? outcome.output = some []) ∧
      (arguments.format ≠ some .json → outcome.output = "\n")

section Accounted

variable {files : FileSystem} {environment : Environment} {arguments : Arguments}

theorem accounted_of_unusable (reason : Unusable files environment arguments) (errors : String) :
    Accounted files environment arguments [] ⟨2, "", errors⟩ := by
  have none := unusable_iff.mp reason
  constructor
  case retained => exact fun settings inForce => (none ⟨settings, inForce⟩).elim
  case unusable => exact iff_of_true rfl reason
  case failed => exact iff_of_false (by simp) fun failed => none (failed.imp fun _ => And.left)
  case succeeded =>
    exact iff_of_false (by simp) fun succeeded => none (succeeded.imp fun _ => And.left)
  case silent => exact fun _ => rfl
  case loaded => exact fun settings inForce => (none ⟨settings, inForce⟩).elim
  case unloaded => exact fun settings inForce => (none ⟨settings, inForce⟩).elim

variable {settings : Settings} (inForce : InForce files environment arguments settings)
include inForce

theorem retains_keptFolders : ∀ other, InForce files environment arguments other →
    Discovery.Retains files other.modules.directory (keptFolders files settings) := by
  intro other alsoInForce
  cases inForce.unique alsoInForce
  exact Discovery.retains_retainedFolders files _

theorem accounted_of_failed (reason : Fails files settings (keptFolders files settings))
    (errors : String) :
    Accounted files environment arguments (keptFolders files settings) ⟨1, "", errors⟩ := by
  constructor
  case retained => exact retains_keptFolders inForce
  case unusable =>
    exact iff_of_false (by simp) fun unusable => unusable_iff.mp unusable ⟨settings, inForce⟩
  case failed => exact iff_of_true rfl ⟨settings, inForce, reason⟩
  case succeeded =>
    refine iff_of_false (by simp) ?_
    rintro ⟨other, alsoInForce, fine⟩
    exact fine (inForce.unique alsoInForce ▸ reason)
  case silent => exact fun _ => rfl
  case loaded => exact fun _ _ _ _ zero => absurd zero (by simp)
  case unloaded =>
    intro other alsoInForce off
    cases inForce.unique alsoInForce
    exact absurd (off.symm.trans reason.1) Bool.false_ne_true

theorem accounted_of_resolved {effective : List EffectiveModule}
    (resolved : resolveWith [] files settings = .ok effective) :
    Accounted files environment arguments (keptFolders files settings)
      ⟨0, render (arguments.format.getD .text) effective ++ "\n", ""⟩ := by
  have fine := (exists_resolveWith_iff files settings).mp ⟨effective, resolved⟩
  constructor
  case retained => exact retains_keptFolders inForce
  case unusable =>
    exact iff_of_false (by simp) fun unusable => unusable_iff.mp unusable ⟨settings, inForce⟩
  case failed =>
    refine iff_of_false (by simp) ?_
    rintro ⟨other, alsoInForce, fails⟩
    exact fine (inForce.unique alsoInForce ▸ fails)
  case succeeded => exact iff_of_true rfl ⟨settings, inForce, fine⟩
  case silent => exact fun failed => absurd rfl failed
  case loaded =>
    intro other alsoInForce on json _
    cases inForce.unique alsoInForce
    have discoverable : Discovery.Discoverable files settings.modules.directory := by
      by_contra hidden
      exact fine ⟨on, .inl hidden⟩
    rw [resolveWith_of_discoverable on discoverable] at resolved
    refine ⟨_, ?_, accountsFor_of_resolved resolved discoverable⟩
    rw [json]
    exact PrintedModule.ofOutput?_renderJson effective
  case unloaded =>
    intro other alsoInForce off
    cases inForce.unique alsoInForce
    cases resolved.symm.trans (resolveWith_of_off off)
    refine ⟨rfl, fun json => ?_, fun plain => ?_⟩
    · rw [json]
      exact PrintedModule.ofOutput?_renderJson []
    · have text : arguments.format.getD .text = .text := by
        cases form : arguments.format with
        | none => rfl
        | some format =>
            cases format with
            | text => rfl
            | json => exact (plain form).elim
      rw [text]
      rfl

end Accounted

theorem exists_accounted_report (files : FileSystem) (environment : Environment)
    (arguments : Arguments) :
    ∃ kept, Accounted files environment arguments kept
      (report [] files environment arguments) := by
  rw [report]
  cases loaded : loadSettings files environment arguments with
  | error fault =>
      refine ⟨_, accounted_of_unusable (unusable_iff.mpr ?_) _⟩
      rintro ⟨settings, inForce⟩
      cases loaded.symm.trans (loadSettings_eq_ok_iff.mpr inForce)
  | ok settings =>
      have inForce := loadSettings_eq_ok_iff.mp loaded
      dsimp only
      cases resolved : resolveWith [] files settings with
      | ok effective => exact ⟨_, accounted_of_resolved inForce resolved⟩
      | error fault =>
          refine ⟨_, accounted_of_failed inForce ?_ _⟩
          by_contra fine
          obtain ⟨effective, otherwise⟩ := (exists_resolveWith_iff files settings).mpr fine
          cases resolved.symm.trans otherwise

/-- A run of the tool without registered modules tells apart what it cannot use from what it
cannot resolve, and otherwise accounts for every manifest. -/
theorem run_accounted (files : FileSystem) (environment : Environment) {arguments : List String}
    {found : Arguments} (read : Arguments.read arguments = .ok (.resolve found)) :
    ∃ kept, Accounted files environment found kept (run [] files environment arguments) := by
  rw [run, read]
  exact exists_accounted_report files environment found

/-- A run whose modules are resolved ends with what is printed of them. -/
theorem run_of_printed {files : FileSystem} {environment : Environment} {arguments : List String}
    {found : Arguments} (read : Arguments.read arguments = .ok (.resolve found))
    {settings : Settings} (loaded : loadSettings files environment found = .ok settings)
    {output : String} (printed : (resolveWith [] files settings).toOption.map (fun modules =>
      render (found.format.getD .text) modules ++ "\n") = some output) :
    run [] files environment arguments = ⟨0, output, ""⟩ := by
  rw [run, read]
  dsimp only
  rw [report, loaded]
  dsimp only
  cases resolved : resolveWith [] files settings with
  | error fault =>
      rw [resolved] at printed
      cases printed
  | ok effective =>
      rw [resolved] at printed
      exact congrArg (Outcome.mk 0 · "") (Option.some.inj printed)

/-- Two folders with manifests of one name, one whose manifest lists this name, and one without
a manifest.  Of the two the first is retained, and its module is a layer of the third. -/
theorem run_of_four_folders :
    let described (text : String) : FileTree := .folder [("module.toml", .file text.toUTF8)]
    let entries : FileTree.Entries := [
      ("upper", described "name = \"metrics\"\noverrides = [\"core\"]"), ("notes", .empty),
      ("copy", described "name = \"core\""), ("base", described "name = \"core\"")]
    let files : FileSystem := ⟨.folder [("modules", .folder entries)], []⟩
    let core : Manifest := {
      name := "core", description := none, deprecated := false, overrides := []
      configs := .empty, bindings := .empty }
    let metrics : Manifest := { core with name := "metrics", overrides := ["core"] }
    let arguments := ["--format=json", "-mmodules"]
    let found : Arguments := { directory := some "modules", format := some .json }
    let output := "[\n  \x7b\n    \"configs\": \x7b\x7d,\n    \"deprecated\": false,\n" ++
      "    \"description\": null,\n    \"layers\": [\n      \"core\",\n      \"metrics\"\n" ++
      "    ],\n    \"name\": \"metrics\",\n    \"provider\": \"manifest:modules\"\n  \x7d\n]\n"
    Arguments.read arguments = .ok (.resolve found) ∧
      run [] files ⟨[]⟩ arguments = ⟨0, output, ""⟩ ∧
      PrintedModule.ofOutput? output = some [⟨"metrics", ["core", "metrics"]⟩] ∧
      Accounted files ⟨[]⟩ found [⟨"base", core⟩, ⟨"upper", metrics⟩] ⟨0, output, ""⟩ := by
  intro described entries files core metrics arguments found output
  have listed : files.list "modules" = .ok entries :=
    FileSystem.list_of_child (FileSystem.isPath_iff.mpr (by decide +kernel)) (by decide) (by decide)
      (by decide) rfl
  have distinct : (entries.map Prod.fst).Nodup := by decide
  have holding : Discovery.holders "modules" entries = [
      ("base", .file "name = \"core\"".toUTF8), ("copy", .file "name = \"core\"".toUTF8),
      ("upper", .file "name = \"metrics\"\noverrides = [\"core\"]".toUTF8)] := by
    have sorted : Discovery.byName entries = entries.reverse :=
      Discovery.byName_eq distinct entries.reverse_perm (by decide)
    have paths : ∀ name ∈ ["base", "copy", "notes", "upper"],
        FileSystem.isPath (Discovery.join "modules" name) = true ∧ FileSystem.isPath
          (Discovery.join (Discovery.join "modules" name) "module.toml") = true := by
      simp only [FileSystem.isPath_iff]
      decide +kernel
    rw [Discovery.holders, sorted]
    simp [entries, described, Discovery.holder?, Discovery.manifestNode?, Discovery.manifestIn?,
      Discovery.manifestFile, FileTree.child?, FileTree.empty, paths]
  have accepted : List.Forall₂ Discovery.AcceptedAs (Discovery.holders "modules" entries)
      [⟨"base", core⟩, ⟨"copy", core⟩, ⟨"upper", metrics⟩] := by
    have plain : Discovery.Accepted (.file "name = \"core\"".toUTF8) core :=
      Discovery.accepted_file (Discovery.eq_some_of_entries (by decide +kernel)) (by decide)
        (by decide +kernel)
    have overriding : Discovery.Accepted
        (.file "name = \"metrics\"\noverrides = [\"core\"]".toUTF8) metrics :=
      Discovery.accepted_file (Discovery.eq_some_of_entries (by decide +kernel)) (by decide)
        (by decide +kernel)
    rw [holding]
    exact .cons ⟨rfl, plain⟩ (.cons ⟨rfl, plain⟩ (.cons ⟨rfl, overriding⟩ .nil))
  obtain ⟨value, folders⟩ := Discovery.found_of_accepted listed accepted
  let settings : Settings := { modules := { directory := "modules", autoLoad := true } }
  have loaded : loadSettings files ⟨[]⟩ found = .ok settings := by
    have same : loadSettings files ⟨[]⟩ found = loadSettings ⟨.folder [], []⟩ ⟨[]⟩ found := rfl
    rw [same]
    decide +kernel
  have printed : (resolveWith [] files settings).toOption.map (fun modules =>
      render .json modules ++ "\n") = some output := by
    rw [resolveWith_of_on rfl, value, contributed, folders]
    decide +kernel
  have ran : run [] files ⟨[]⟩ arguments = ⟨0, output, ""⟩ := run_of_printed rfl loaded printed
  have accounts := @run_accounted files ⟨[]⟩ arguments found rfl
  rw [ran] at accounts
  obtain ⟨kept, accounted⟩ := accounts
  have same := (accounted.retained settings (loadSettings_eq_ok_iff.mp loaded)).unique listed
    distinct (Discovery.retains_retainedFolders files "modules")
  have first : retainedFolders [⟨"base", core⟩, ⟨"copy", core⟩, ⟨"upper", metrics⟩] =
      [⟨"base", core⟩, ⟨"upper", metrics⟩] := by
    simp [retainedFolders, firsts, core, metrics]
  rw [folders, first] at same
  rw [same] at accounted
  exact ⟨rfl, ran, by decide +kernel, accounted⟩

end Tool

end Overlay
