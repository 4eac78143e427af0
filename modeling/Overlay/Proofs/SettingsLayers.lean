import Overlay.CommandLine.Tool
import Overlay.Proofs.Blank
import Overlay.Proofs.SettingsFile

/-!
# Settings in four layers

An argument comes before a variable of the environment, a variable before the file, and the file
before the defaults.  The layers differ from setting to setting: a blank variable says nothing
while a blank argument counts, a directory among the arguments also switches automatic loading
on, and a logging section is made for a filter that comes from outside.  Whether the settings
contradict themselves is asked once, at the end.
-/

namespace Overlay

/-! ## Flags -/

namespace Environment

/-- The words for a truth value. -/
def flagWords : Bool → List String
  | true => ["true", "1", "yes", "on"]
  | false => ["false", "0", "no", "off"]

/-- A text is a word for a truth value, in upper or lower case and between blanks. -/
def Spells (text : String) (flag : Bool) : Prop :=
  ∃ before word after, text.toList = before ++ (word ++ after) ∧
    Text.Blank before ∧ Text.Blank after ∧ String.ofList (word.map Char.toLower) ∈ flagWords flag

/-- A variable has a text for its value that is not blank. -/
def Sets (environment : Environment) (name text : String) : Prop :=
  environment.text? name = some text ∧ ¬ Text.Blank text.toList

/-- A variable has a word for a truth value as its value. -/
def SetsFlag (environment : Environment) (name : String) (flag : Bool) : Prop :=
  ∃ text, environment.text? name = some text ∧ Spells text flag

/-- Of ASCII a table tells. -/
theorem lowerAscii_of_ascii {char : Char} (ascii : char.toNat < 128) :
    Text.lowerAscii char = char.toLower ∧
      (Text.isBlankChar char = true → Text.lowerAscii char = char) := by
  have table : ∀ code < 128,
      Text.lowerAscii (Char.ofNat code) = (Char.ofNat code).toLower ∧
        (Text.isBlankChar (Char.ofNat code) = true →
          Text.lowerAscii (Char.ofNat code) = Char.ofNat code) := by
    decide
  have row := table char.toNat ascii
  rwa [Char.ofNat_toNat] at row

/-- There are no letters in two cases beyond ASCII here. -/
theorem not_upper {char : Char} (beyond : ¬ char.toNat < 128) : ¬ char ≤ 'Z' := by
  intro upper
  have code : char.toNat ≤ 'Z'.toNat := UInt32.le_iff_toNat_le.mp upper
  exact beyond (Nat.lt_of_le_of_lt code (by decide))

theorem lowerAscii_eq_toLower (char : Char) : Text.lowerAscii char = char.toLower := by
  by_cases ascii : char.toNat < 128
  · exact (lowerAscii_of_ascii ascii).1
  · have beyond := not_upper ascii
    have unchanged : char.toLower = char := dif_neg fun upper => beyond upper.2
    rw [Text.lowerAscii, if_neg fun upper => beyond upper.2, unchanged]

theorem lowerAscii_of_blank {char : Char} (blank : Text.isBlankChar char = true) :
    Text.lowerAscii char = char := by
  by_cases ascii : char.toNat < 128
  · exact (lowerAscii_of_ascii ascii).2 blank
  · rw [Text.lowerAscii, if_neg fun upper => not_upper ascii upper.2]

/-- No word for a truth value has a blank in it. -/
theorem visible_of_mem_flagWords {word : List Char} {flag : Bool}
    (listed : String.ofList (word.map Char.toLower) ∈ flagWords flag) :
    word ≠ [] ∧ ∀ char ∈ word, Text.isBlankChar char = false := by
  have visible : ∀ flag, ∀ known ∈ flagWords flag,
      known.toList ≠ [] ∧ ∀ char ∈ known.toList, Text.isBlankChar char = false := by
    simp [flagWords]
    decide
  obtain ⟨some, visible⟩ := visible flag _ listed
  rw [String.toList_ofList] at some visible
  refine ⟨fun empty => some (congrArg _ empty), fun char member => ?_⟩
  refine Bool.eq_false_iff.mpr fun blank => ?_
  have lower := visible _ (List.mem_map_of_mem member)
  rw [← lowerAscii_eq_toLower, lowerAscii_of_blank blank, blank] at lower
  cases lower

theorem flagOf?_eq_some_iff_mem {text : String} {flag : Bool} :
    flagOf? text = some flag ↔
      String.ofList ((Text.trimmed text.toList).map Char.toLower) ∈ flagWords flag := by
  have apart : ∀ word ∈ flagWords true, word ∉ flagWords false := by decide
  have lower : (Text.trimmed text.toList).map Text.lowerAscii =
      (Text.trimmed text.toList).map Char.toLower :=
    List.map_congr_left fun char _ => lowerAscii_eq_toLower char
  rw [flagOf?, lower]
  split
  case isTrue on =>
    cases flag with
    | true => exact iff_of_true rfl on
    | false => exact iff_of_false (by simp) (apart _ on)
  case isFalse notOn =>
    split
    case isTrue off =>
      cases flag with
      | true => exact iff_of_false (by simp) notOn
      | false => exact iff_of_true rfl off
    case isFalse notOff =>
      refine iff_of_false (by simp) ?_
      cases flag with
      | true => exact notOn
      | false => exact notOff

theorem flagOf?_eq_some_iff {text : String} {flag : Bool} :
    flagOf? text = some flag ↔ Spells text flag := by
  rw [flagOf?_eq_some_iff_mem]
  constructor
  · intro listed
    obtain ⟨before, after, blankBefore, blankAfter, parts⟩ := Text.exists_trimmed text.toList
    exact ⟨before, _, after, parts, blankBefore, blankAfter, listed⟩
  · rintro ⟨before, word, after, parts, blankBefore, blankAfter, listed⟩
    rwa [parts, Text.trimmed_eq blankBefore blankAfter (visible_of_mem_flagWords listed).2]

/-- A word for a truth value is not blank. -/
theorem Spells.not_blank {text : String} {flag : Bool} (spells : Spells text flag) :
    ¬ Text.Blank text.toList := by
  obtain ⟨before, word, after, parts, -, -, listed⟩ := spells
  obtain ⟨some, visible⟩ := visible_of_mem_flagWords listed
  obtain ⟨char, member⟩ := List.exists_mem_of_ne_nil word some
  intro blank
  have inside : char ∈ text.toList := by simp [parts, member]
  exact Bool.false_ne_true ((visible char member).symm.trans (blank char inside))

variable {environment : Environment} {name : String}

theorem setting?_eq_some_iff {text : String} :
    environment.setting? name = some text ↔ environment.Sets name text := by
  rw [setting?, Option.filter_eq_some_iff, Bool.not_eq_true', Text.isBlank_eq_false_iff, Sets]

theorem flag?_eq_some_iff {flag : Bool} :
    environment.flag? name = some flag ↔ environment.SetsFlag name flag := by
  rw [flag?, Option.bind_eq_some_iff, SetsFlag]
  simp only [setting?_eq_some_iff, flagOf?_eq_some_iff, Sets]
  refine exists_congr fun text => ⟨fun both => ⟨both.1.1, both.2⟩, fun both => ?_⟩
  exact ⟨⟨both.1, both.2.not_blank⟩, both.2⟩

end Environment

/-! ## Layers -/

/-- What a setting comes to: what the argument says, without one what the environment says, and
without either what the layers below say. -/
inductive Chosen {α : Type} (argument : Option α) (Said : α → Prop) (below : α) : α → Prop where
  | argument {value : α} (given : argument = some value) : Chosen argument Said below value
  | environment {value : α} (free : argument = none) (stated : Said value) :
      Chosen argument Said below value
  | below (free : argument = none) (unsaid : ∀ value, ¬ Said value) :
      Chosen argument Said below below

theorem chosen_iff {α : Type} {argument said : Option α} {Said : α → Prop} {below : α}
    (meaning : ∀ value, said = some value ↔ Said value) {value : α} :
    Chosen argument Said below value ↔ value = (argument.or said).getD below := by
  constructor
  · intro chosen
    cases chosen with
    | argument given => simp [given]
    | environment free stated => simp [free, (meaning value).mpr stated]
    | below free unsaid =>
        have unset : said = none := by
          refine Option.eq_none_iff_forall_ne_some.mpr fun value same => ?_
          exact unsaid value ((meaning value).mp same)
        simp [free, unset]
  · rintro rfl
    cases argument with
    | some value => exact .argument rfl
    | none =>
        cases said with
        | some value => exact .environment rfl ((meaning value).mp rfl)
        | none => exact .below rfl fun value stated => by cases (meaning value).mpr stated

theorem Chosen.unique {α : Type} {argument said : Option α} {Said : α → Prop}
    {below value other : α} (chosen : Chosen argument Said below value)
    (meaning : ∀ value, said = some value ↔ Said value)
    (alsoChosen : Chosen argument Said below other) : value = other :=
  ((chosen_iff meaning).mp chosen).trans ((chosen_iff meaning).mp alsoChosen).symm

/-- The settings that a base, the environment and the arguments make together. -/
structure Layered (base : Settings) (environment : Environment) (arguments : Arguments)
    (settings : Settings) : Prop where
  directory : Chosen arguments.directory (environment.Sets Environment.directoryVariable)
    base.modules.directory settings.modules.directory
  /-- To name a directory is to ask for its modules to be loaded. -/
  autoLoad : Chosen (arguments.directory.map fun _ => true)
    (environment.SetsFlag Environment.autoLoadVariable)
    base.modules.autoLoad settings.modules.autoLoad
  reportDeprecated : settings.modules.reportDeprecated = base.modules.reportDeprecated
  filter : Chosen (arguments.filter.map some)
    (fun filter => ∃ text, filter = some text ∧
      environment.Sets Environment.filterVariable text)
    (base.logging.bind LogSettings.filter) (settings.logging.bind LogSettings.filter)
  /-- A section that is made for a filter has the default format. -/
  jsonFormat : ∀ logging, settings.logging = some logging →
    logging.jsonFormat = (base.logging.getD {}).jsonFormat
  /-- A section is made only for a filter. -/
  logging : settings.logging = none ↔ base.logging = none ∧ arguments.filter = none ∧
    ∀ text, ¬ environment.Sets Environment.filterVariable text

section Layered

variable {base settings other : Settings} {environment : Environment} {arguments : Arguments}

theorem sets_filter_iff (filter : Option String) :
    (environment.setting? Environment.filterVariable).map some = some filter ↔
      ∃ text, filter = some text ∧ environment.Sets Environment.filterVariable text := by
  rw [Option.map_eq_some_iff]
  refine exists_congr fun text => ?_
  rw [Environment.setting?_eq_some_iff, and_comm, eq_comm]

/-- The layers settle the settings. -/
theorem Layered.unique (layered : Layered base environment arguments settings)
    (alsoLayered : Layered base environment arguments other) : settings = other := by
  have directory := layered.directory.unique (fun _ => Environment.setting?_eq_some_iff)
    alsoLayered.directory
  have autoLoad := layered.autoLoad.unique (fun _ => Environment.flag?_eq_some_iff)
    alsoLayered.autoLoad
  have filter := layered.filter.unique sets_filter_iff alsoLayered.filter
  have report := layered.reportDeprecated.trans alsoLayered.reportDeprecated.symm
  have modules : settings.modules = other.modules := by
    cases both : settings.modules
    cases others : other.modules
    simp_all
  have logging : settings.logging = other.logging := by
    cases mine : settings.logging with
    | none => exact (alsoLayered.logging.mpr (layered.logging.mp mine)).symm
    | some section_ =>
        cases others : other.logging with
        | none => cases mine.symm.trans (layered.logging.mpr (alsoLayered.logging.mp others))
        | some otherSection =>
            have format := (layered.jsonFormat _ mine).trans (alsoLayered.jsonFormat _ others).symm
            rw [mine, others] at filter
            cases section_
            cases otherSection
            simp_all
  cases settings
  cases other
  exact congrArg₂ Settings.mk modules logging

end Layered

namespace Tool

section InForce

variable (base : Settings) (environment : Environment) (arguments : Arguments)

theorem modules_withArguments :
    (withArguments (base.withEnvironment environment) arguments).modules =
      { autoLoad := ((arguments.directory.map fun _ => true).or
          (environment.flag? Environment.autoLoadVariable)).getD base.modules.autoLoad
        directory := (arguments.directory.or
          (environment.setting? Environment.directoryVariable)).getD base.modules.directory
        reportDeprecated := base.modules.reportDeprecated } := by
  cases directory : arguments.directory <;> cases filter : arguments.filter <;>
    cases said : environment.setting? Environment.filterVariable <;>
    simp [withArguments, Settings.withEnvironment, Settings.withFilter, directory, filter, said]

theorem logging_withArguments :
    (withArguments (base.withEnvironment environment) arguments).logging =
      ((arguments.filter.or (environment.setting? Environment.filterVariable)).map fun filter =>
        { base.logging.getD {} with filter := some filter }).or base.logging := by
  cases directory : arguments.directory <;> cases filter : arguments.filter <;>
    cases said : environment.setting? Environment.filterVariable <;>
    simp [withArguments, Settings.withEnvironment, Settings.withFilter, directory, filter, said]

theorem layered_withArguments :
    Layered base environment arguments
      (withArguments (base.withEnvironment environment) arguments) := by
  have modules := modules_withArguments base environment arguments
  have logging := logging_withArguments base environment arguments
  constructor
  case directory =>
    rw [chosen_iff fun _ => Environment.setting?_eq_some_iff, modules]
  case autoLoad =>
    rw [chosen_iff fun _ => Environment.flag?_eq_some_iff, modules]
  case reportDeprecated => rw [modules]
  case filter =>
    rw [chosen_iff sets_filter_iff, logging]
    cases arguments.filter <;> cases environment.setting? Environment.filterVariable <;> simp
  case jsonFormat =>
    intro section_ made
    rw [logging] at made
    cases filter : arguments.filter.or
        (environment.setting? Environment.filterVariable) with
    | none =>
        rw [filter, Option.map_none, Option.none_or] at made
        rw [made, Option.getD_some]
    | some filter =>
        rw [filter, Option.map_some, Option.some_or] at made
        exact (Option.some.inj made) ▸ rfl
  case logging =>
    have unsaid : environment.setting? Environment.filterVariable = none ↔
        ∀ text, ¬ environment.Sets Environment.filterVariable text := by
      simp only [Option.eq_none_iff_forall_ne_some, ne_eq, Environment.setting?_eq_some_iff]
    rw [logging, Option.or_eq_none_iff, Option.map_eq_none_iff, Option.or_eq_none_iff, unsaid,
      and_comm]

end InForce

end Tool

/-! ## The judgement at the end -/

namespace Settings

variable {settings : Settings}

/-- Modules are to be loaded from nowhere. -/
def LacksDirectory (settings : Settings) : Prop :=
  settings.modules.autoLoad = true ∧ Text.Blank settings.modules.directory.toList

/-- There is a filter that says nothing. -/
def HasBlankFilter (settings : Settings) : Prop :=
  ∃ filter, settings.logging.bind LogSettings.filter = some filter ∧ Text.Blank filter.toList

/-- Settings are accepted as they are if neither contradiction is in them, and refused for the
first one otherwise. -/
structure Judged (settings : Settings) (outcome : Except SettingsFault Settings) : Prop where
  accepted : ∀ accepted, outcome = .ok accepted ↔
    accepted = settings ∧ ¬ settings.LacksDirectory ∧ ¬ settings.HasBlankFilter
  refused : ∀ fault, outcome = .error fault ↔
    fault = .blankDirectory ∧ settings.LacksDirectory ∨
      fault = .blankFilter ∧ ¬ settings.LacksDirectory ∧ settings.HasBlankFilter

theorem lacksDirectory_iff :
    (settings.modules.autoLoad && Text.isBlank settings.modules.directory) = true ↔
      settings.LacksDirectory := by
  rw [Bool.and_eq_true, Text.isBlank_eq_true_iff, LacksDirectory]

theorem judged_check (settings : Settings) : settings.Judged settings.check := by
  by_cases lacks : settings.LacksDirectory
  · have outcome : settings.check = .error .blankDirectory := by
      rw [check, problem?, if_pos (lacksDirectory_iff.mpr lacks)]
    constructor <;> simp [outcome, lacks, eq_comm]
  · by_cases empty : settings.HasBlankFilter
    · have ⟨filter, found, blank⟩ := empty
      have outcome : settings.check = .error .blankFilter := by
        rw [check, problem?, if_neg (lacksDirectory_iff.not.mpr lacks), found]
        simp [Text.isBlank_eq_true_iff.mpr blank]
      constructor <;> simp [outcome, lacks, empty, eq_comm]
    · have outcome : settings.check = .ok settings := by
        rw [check, problem?, if_neg (lacksDirectory_iff.not.mpr lacks)]
        cases found : settings.logging.bind LogSettings.filter with
        | none => rfl
        | some filter =>
            have visible : Text.isBlank filter = false :=
              Text.isBlank_eq_false_iff.mpr fun blank => empty ⟨filter, found, blank⟩
            simp [visible]
      constructor <;> simp [outcome, lacks, empty, eq_comm]

end Settings

namespace Tool

/-- The settings that the layers are laid upon: those of the file, without one the default
ones. -/
inductive Starts (files : FileSystem) : Option String → Settings → Prop where
  | defaults : Starts files none {}
  | file {path : String} {base : Settings} (written : Settings.WrittenIn files path base) :
      Starts files (some path) base

theorem fileSettings_eq_ok_iff {files : FileSystem} {arguments : Arguments} {base : Settings} :
    fileSettings files arguments = .ok base ↔ Starts files arguments.config base := by
  rw [fileSettings]
  generalize arguments.config = config
  cases config with
  | none =>
      constructor
      · rintro ⟨⟩
        exact .defaults
      · rintro ⟨⟩
        rfl
  | some path =>
      rw [Settings.load_eq_ok_iff]
      constructor
      · exact .file
      · intro starts
        cases starts with
        | file written => exact written

theorem loadSettings_of_unloadable {files : FileSystem} {arguments : Arguments} {path : String}
    {fault : SettingsFault} (given : arguments.config = some path)
    (unloadable : Settings.Unloadable files path fault) (environment : Environment) :
    loadSettings files environment arguments = .error fault := by
  rw [loadSettings, fileSettings, given]
  dsimp only
  rw [Settings.load_eq_error_iff.mpr unloadable]
  rfl

/-- A file that cannot be loaded is an error.  Otherwise the layers settle the settings, which
are then judged. -/
theorem loadSettings_layered (files : FileSystem) (environment : Environment)
    (arguments : Arguments) :
    (∀ path fault, arguments.config = some path → Settings.Unloadable files path fault →
      loadSettings files environment arguments = .error fault) ∧
    ∀ base, Starts files arguments.config base → ∃ settings,
      Layered base environment arguments settings ∧
      (∀ other, Layered base environment arguments other → other = settings) ∧
      settings.Judged (loadSettings files environment arguments) := by
  constructor
  · exact fun path fault given unloadable =>
      loadSettings_of_unloadable given unloadable environment
  · intro base starts
    have layered := layered_withArguments base environment arguments
    refine ⟨_, layered, fun other alsoLayered => alsoLayered.unique layered, ?_⟩
    rw [loadSettings, fileSettings_eq_ok_iff.mpr starts]
    exact Settings.judged_check _

/-- A directory among the arguments switches loading on against the environment. -/
example : loadSettings ⟨.empty, []⟩ ⟨[("MODWEAVE_AUTO_LOAD", " Off ".toUTF8)]⟩
    { directory := some "plugins" } = .ok { modules := { directory := "plugins" } } := by
  decide +kernel

end Tool

end Overlay
