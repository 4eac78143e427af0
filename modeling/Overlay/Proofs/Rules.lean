import Mathlib.Data.List.Forall2
import Mathlib.Data.List.Induction
import Mathlib.Data.List.Sort
import Overlay.Manifest.Rules
import Overlay.Proofs.Blank
import Overlay.Proofs.Splitting

/-!
# What the rules demand of a manifest

A manifest is valid exactly if it obeys the rules, which are stated here without the check.  A
rule is broken at a place of the manifest.  The check names what is wrong at every such place,
once and in the order in which the manifest is read, so it never refuses a manifest without a
reason.
-/

namespace Overlay

/-- A text that may name a module. -/
structure IsModuleName (text : String) : Prop where
  nonempty : text ≠ ""
  short : text.utf8ByteSize ≤ 64
  begins : ∀ first ∈ text.toList.head?, Text.isAlphanumeric first = true
  chars : ∀ char ∈ text.toList,
    Text.isAlphanumeric char = true ∨ char = '-' ∨ char = '_'

/-- A path of a setting: no part between two dots is blank. -/
def IsSettingPath (path : String) : Prop :=
  ∀ part ∈ path.toList.splitOn '.', ¬ Text.Blank part

namespace Manifest

/-- What the rules demand of a manifest. -/
structure Obeys (manifest : Manifest) : Prop where
  name : IsModuleName manifest.name
  targets : ∀ target ∈ manifest.overrides, IsModuleName target ∧ target ≠ manifest.name
  configs : ∀ config ∈ manifest.configs.entries,
    IsSettingPath config.1 ∧ ¬ Text.Blank config.2.toList
  keys : ∀ key ∈ manifest.bindings.keys, ¬ Text.Blank key.toList

/-- A place of a manifest where a rule can be broken. -/
inductive Place where
  | name
  | target (index : Nat)
  | path (index : Nat)
  | label (index : Nat)
  | key (index : Nat)

namespace Place

/-- The part of the manifest that the place is in. -/
def part : Place → Nat
  | .name => 0
  | .target _ => 1
  | .path _ | .label _ => 2
  | .key _ => 3

/-- Where in its part the place is.  The label of a setting comes after its path. -/
def offset : Place → Nat
  | .name => 0
  | .target index | .key index => index
  | .path index => 2 * index
  | .label index => 2 * index + 1

/-- A place that is read before another one. -/
def Before (first second : Place) : Prop :=
  first.part < second.part ∨ first.part = second.part ∧ first.offset < second.offset

end Place

/-- The rule that a manifest breaks at a place. -/
inductive Breaks (manifest : Manifest) : Place → ManifestProblem → Prop where
  | emptyName (empty : manifest.name = "") : Breaks manifest .name .emptyName
  | invalidName (filled : manifest.name ≠ "") (invalid : ¬ IsModuleName manifest.name) :
      Breaks manifest .name (.invalidName manifest.name)
  | invalidTarget {index : Nat} {target : String}
      (listed : manifest.overrides[index]? = some target) (invalid : ¬ IsModuleName target) :
      Breaks manifest (.target index) (.invalidTarget target)
  | overridesItself {index : Nat} (listed : manifest.overrides[index]? = some manifest.name)
      (valid : IsModuleName manifest.name) :
      Breaks manifest (.target index) (.overridesItself manifest.name)
  | invalidPath {index : Nat} {config : String × String}
      (listed : manifest.configs.entries[index]? = some config)
      (invalid : ¬ IsSettingPath config.1) : Breaks manifest (.path index) (.invalidPath config.1)
  | untypedPath {index : Nat} {config : String × String}
      (listed : manifest.configs.entries[index]? = some config)
      (blank : Text.Blank config.2.toList) :
      Breaks manifest (.label index) (.untypedPath config.1)
  | blankKey {index : Nat} {key : String} (listed : manifest.bindings.keys[index]? = some key)
      (blank : Text.Blank key.toList) : Breaks manifest (.key index) .blankKey

/-- The problems at all places of a kind where a rule is broken, in the order of the places. -/
def Reports (manifest : Manifest) (kind : Place → Prop) (problems : List ManifestProblem) :
    Prop :=
  ∃ places : List Place, places.Pairwise Place.Before ∧
    (∀ place, place ∈ places ↔ kind place ∧ ∃ problem, manifest.Breaks place problem) ∧
    List.Forall₂ manifest.Breaks places problems

end Manifest

/-! ## Names and paths -/

theorem isName_eq_true_iff {text : String} : Manifest.isName text = true ↔ IsModuleName text := by
  have shape : IsModuleName text ↔ text.toList ≠ [] ∧ text.utf8ByteSize ≤ 64 ∧
      (∀ first ∈ text.toList.head?, Text.isAlphanumeric first = true) ∧
      ∀ char ∈ text.toList, Text.isAlphanumeric char = true ∨ char = '-' ∨ char = '_' := by
    rw [ne_eq, String.toList_eq_nil_iff]
    exact ⟨fun name => ⟨name.nonempty, name.short, name.begins, name.chars⟩,
      fun ⟨nonempty, short, begins, chars⟩ => ⟨nonempty, short, begins, chars⟩⟩
  rw [shape, Manifest.isName]
  cases text.toList with
  | nil => simp
  | cons first rest =>
      simp only [Manifest.isNameChar, Bool.and_eq_true, Bool.or_eq_true, decide_eq_true_eq,
        List.all_eq_true, beq_iff_eq, or_assoc, and_assoc]
      simp [Manifest.nameLimit]

theorem isPath_eq_true_iff {path : String} : Manifest.isPath path = true ↔ IsSettingPath path := by
  simp [Manifest.isPath, IsSettingPath, Text.splitAt_eq_splitOn, Text.Blank]

namespace Manifest

variable {manifest : Manifest} {kind other : Place → Prop} {problems others : List ManifestProblem}

/-! ## Reports -/

theorem Breaks.unique {place : Place} {problem another : ManifestProblem}
    (breaks : manifest.Breaks place problem) (alsoBreaks : manifest.Breaks place another) :
    another = problem := by
  cases breaks <;> cases alsoBreaks <;> simp_all

theorem reports_nil (intact : ∀ place, kind place → ∀ problem, ¬ manifest.Breaks place problem) :
    manifest.Reports kind [] := by
  refine ⟨[], .nil, fun place => ?_, .nil⟩
  simpa using intact place

theorem reports_intact {place : Place} (intact : ∀ problem, ¬ manifest.Breaks place problem) :
    manifest.Reports (· = place) [] :=
  reports_nil fun _ same => same ▸ intact

theorem reports_singleton {place : Place} {problem : ManifestProblem}
    (breaks : manifest.Breaks place problem) : manifest.Reports (· = place) [problem] := by
  refine ⟨[place], List.pairwise_singleton _ _, fun other => ?_, .cons breaks .nil⟩
  rw [List.mem_singleton]
  exact ⟨fun same => ⟨same, problem, same ▸ breaks⟩, And.left⟩

/-- Reports on places, of which those of the first kind are read first. -/
theorem Reports.append (reports : manifest.Reports kind problems)
    (further : manifest.Reports other others)
    (ordered : ∀ first, kind first → ∀ second, other second → first.Before second) :
    manifest.Reports (fun place => kind place ∨ other place) (problems ++ others) := by
  obtain ⟨places, sorted, broken, found⟩ := reports
  obtain ⟨later, laterSorted, laterBroken, laterFound⟩ := further
  refine ⟨places ++ later, ?_, fun place => ?_, List.rel_append found laterFound⟩
  · apply List.pairwise_append.mpr
    refine ⟨sorted, laterSorted, fun first firstMember second secondMember => ?_⟩
    exact ordered first ((broken first).mp firstMember).1 second
      ((laterBroken second).mp secondMember).1
  · rw [List.mem_append, broken, laterBroken, or_and_right]

/-- Reports on the items of a list, item after item. -/
theorem Reports.flatMap {α : Type} {items : List α} {report : α → List ManifestProblem}
    {kindAt : Nat → Place → Prop}
    (each : ∀ index item, items[index]? = some item →
      manifest.Reports (kindAt index) (report item))
    (ordered : ∀ index later, index < later → ∀ first, kindAt index first →
      ∀ second, kindAt later second → first.Before second) :
    manifest.Reports (fun place => ∃ index < items.length, kindAt index place)
      (items.flatMap report) := by
  induction items using List.reverseRecOn with
  | nil => exact reports_nil (by simp)
  | append_singleton items item ih =>
      have before := ih fun index other listed => by
        apply each
        rw [List.getElem?_append_left (List.getElem?_eq_some_iff.mp listed).1, listed]
      have last := each items.length item (by simp)
      rw [List.flatMap_append, List.flatMap_singleton]
      have all := before.append last fun first firstKind second secondKind => by
        obtain ⟨index, within, firstKind⟩ := firstKind
        exact ordered index _ within first firstKind second secondKind
      have same : (fun place => ∃ index < (items ++ [item]).length, kindAt index place) =
          fun place => (∃ index < items.length, kindAt index place) ∨
            kindAt items.length place := by
        funext place
        simp only [List.length_append, List.length_singleton, Nat.lt_succ_iff_lt_or_eq,
          or_and_right, exists_or, exists_eq_left]
      rw [same]
      exact all

/-! ## The parts of a manifest -/

theorem reports_name : manifest.Reports (· = .name) (nameProblems manifest.name) := by
  rw [nameProblems]
  split
  case isTrue empty => exact reports_singleton (.emptyName (String.isEmpty_iff.mp empty))
  case isFalse filled =>
    rw [String.isEmpty_iff] at filled
    split
    case isTrue valid =>
      rw [isName_eq_true_iff] at valid
      apply reports_intact
      rintro problem (empty | ⟨_, invalid⟩)
      · exact filled empty
      · exact invalid valid
    case isFalse invalid =>
      rw [isName_eq_true_iff] at invalid
      exact reports_singleton (.invalidName filled invalid)

theorem reports_target {index : Nat} {target : String}
    (listed : manifest.overrides[index]? = some target) :
    manifest.Reports (· = .target index) (targetProblems manifest.name target) := by
  rw [targetProblems]
  split
  case isTrue invalid =>
    rw [Bool.not_eq_true', ← Bool.not_eq_true, isName_eq_true_iff] at invalid
    exact reports_singleton (.invalidTarget listed invalid)
  case isFalse valid =>
    rw [Bool.not_eq_true', Bool.not_eq_false, isName_eq_true_iff] at valid
    split
    case isTrue same =>
      subst same
      exact reports_singleton (.overridesItself listed valid)
    case isFalse different =>
      apply reports_intact
      rintro problem (_ | _ | ⟨alsoListed, invalid⟩ | ⟨alsoListed, _⟩)
      · cases listed.symm.trans alsoListed
        exact invalid valid
      · exact different (Option.some.inj (listed.symm.trans alsoListed))

theorem reports_path {index : Nat} {config : String × String}
    (listed : manifest.configs.entries[index]? = some config) :
    manifest.Reports (· = .path index)
      (if isPath config.1 then [] else [.invalidPath config.1]) := by
  split
  case isTrue valid =>
    rw [isPath_eq_true_iff] at valid
    apply reports_intact
    rintro problem (_ | _ | _ | _ | ⟨alsoListed, invalid⟩)
    cases listed.symm.trans alsoListed
    exact invalid valid
  case isFalse invalid =>
    rw [isPath_eq_true_iff] at invalid
    exact reports_singleton (.invalidPath listed invalid)

theorem reports_label {index : Nat} {config : String × String}
    (listed : manifest.configs.entries[index]? = some config) :
    manifest.Reports (· = .label index)
      (if Text.isBlank config.2 then [.untypedPath config.1] else []) := by
  split
  case isTrue blank =>
    rw [Text.isBlank_eq_true_iff] at blank
    exact reports_singleton (.untypedPath listed blank)
  case isFalse typed =>
    rw [Text.isBlank_eq_true_iff] at typed
    apply reports_intact
    rintro problem (_ | _ | _ | _ | _ | ⟨alsoListed, blank⟩)
    cases listed.symm.trans alsoListed
    exact typed blank

theorem reports_config {index : Nat} {config : String × String}
    (listed : manifest.configs.entries[index]? = some config) :
    manifest.Reports (fun place => place = .path index ∨ place = .label index)
      (configProblems config.1 config.2) := by
  apply (reports_path listed).append (reports_label listed)
  rintro first rfl second rfl
  exact .inr ⟨rfl, Nat.lt_succ_self _⟩

theorem reports_key {index : Nat} {key : String}
    (listed : manifest.bindings.keys[index]? = some key) :
    manifest.Reports (· = .key index) (keyProblems key) := by
  rw [keyProblems]
  split
  case isTrue blank =>
    rw [Text.isBlank_eq_true_iff] at blank
    exact reports_singleton (.blankKey listed blank)
  case isFalse filled =>
    rw [Text.isBlank_eq_true_iff] at filled
    apply reports_intact
    rintro problem (_ | _ | _ | _ | _ | _ | ⟨alsoListed, blank⟩)
    cases listed.symm.trans alsoListed
    exact filled blank

theorem reports_targets :
    manifest.Reports (fun place => ∃ index < manifest.overrides.length, place = .target index)
      (manifest.overrides.flatMap (targetProblems manifest.name)) := by
  apply Reports.flatMap (fun index target => reports_target)
  rintro index later less first rfl second rfl
  exact .inr ⟨rfl, less⟩

theorem reports_configs :
    manifest.Reports
      (fun place => ∃ index < manifest.configs.entries.length,
        place = .path index ∨ place = .label index)
      (manifest.configs.entries.flatMap fun (path, label) => configProblems path label) := by
  apply Reports.flatMap (fun index config => reports_config)
  rintro index later less first (rfl | rfl) second (rfl | rfl) <;>
    exact .inr ⟨rfl, by simp only [Place.offset]; omega⟩

theorem reports_keys :
    manifest.Reports (fun place => ∃ index < manifest.bindings.keys.length, place = .key index)
      (manifest.bindings.keys.flatMap keyProblems) := by
  apply Reports.flatMap (fun index key => reports_key)
  rintro index later less first rfl second rfl
  exact .inr ⟨rfl, less⟩

/-- What is wrong with a manifest is what is wrong at its places, in their order. -/
theorem reports_problems (manifest : Manifest) :
    manifest.Reports (fun _ => True) manifest.problems := by
  have named : manifest.Reports (· = .name) _ := reports_name
  have overriding := named.append reports_targets (by
    rintro first rfl second ⟨_, _, rfl⟩
    exact .inl Nat.zero_lt_one)
  have configured := overriding.append reports_configs (by
    rintro first (rfl | ⟨_, _, rfl⟩) second ⟨_, _, rfl | rfl⟩ <;>
      exact .inl (by simp [Place.part]))
  have bound := configured.append reports_keys (by
    rintro first ((rfl | ⟨_, _, rfl⟩) | ⟨_, _, rfl | rfl⟩) second ⟨_, _, rfl⟩ <;>
      exact .inl (by simp [Place.part]))
  obtain ⟨places, sorted, broken, found⟩ := bound
  refine ⟨places, sorted, fun place => ?_, found⟩
  rw [broken, true_and]
  refine and_iff_right_of_imp ?_
  rintro ⟨problem, breaks⟩
  cases breaks with
  | emptyName | invalidName => simp
  | invalidTarget listed | overridesItself listed =>
      simp [(List.getElem?_eq_some_iff.mp listed).1]
  | invalidPath listed | untypedPath listed =>
      simp [(List.getElem?_eq_some_iff.mp listed).1]
  | blankKey listed =>
      simp [(List.getElem?_eq_some_iff.mp listed).1]

/-! ## Verdicts -/

/-- A manifest obeys the rules if it breaks none of them anywhere. -/
theorem obeys_iff_intact :
    manifest.Obeys ↔ ∀ place problem, ¬ manifest.Breaks place problem := by
  constructor
  · intro obeys place problem breaks
    cases breaks with
    | emptyName empty => exact obeys.name.nonempty empty
    | invalidName filled invalid => exact invalid obeys.name
    | invalidTarget listed invalid =>
        exact invalid (obeys.targets _ (List.mem_of_getElem? listed)).1
    | overridesItself listed valid =>
        exact (obeys.targets _ (List.mem_of_getElem? listed)).2 rfl
    | invalidPath listed invalid =>
        exact invalid (obeys.configs _ (List.mem_of_getElem? listed)).1
    | untypedPath listed blank =>
        exact (obeys.configs _ (List.mem_of_getElem? listed)).2 blank
    | blankKey listed blank => exact obeys.keys _ (List.mem_of_getElem? listed) blank
  · intro intact
    constructor
    case name =>
      by_contra invalid
      by_cases empty : manifest.name = ""
      · exact intact _ _ (.emptyName empty)
      · exact intact _ _ (.invalidName empty invalid)
    case targets =>
      intro target member
      obtain ⟨index, listed⟩ := List.mem_iff_getElem?.mp member
      have valid : IsModuleName target := by
        by_contra invalid
        exact intact _ _ (.invalidTarget listed invalid)
      refine ⟨valid, ?_⟩
      rintro rfl
      exact intact _ _ (.overridesItself listed valid)
    case configs =>
      intro config member
      obtain ⟨index, listed⟩ := List.mem_iff_getElem?.mp member
      constructor
      · by_contra invalid
        exact intact _ _ (.invalidPath listed invalid)
      · exact fun blank => intact _ _ (.untypedPath listed blank)
    case keys =>
      intro key member blank
      obtain ⟨index, listed⟩ := List.mem_iff_getElem?.mp member
      exact intact _ _ (.blankKey listed blank)

/-- The places where rules are broken determine the report on them. -/
theorem Reports.unique (reports : manifest.Reports kind problems)
    (alsoReports : manifest.Reports kind others) : others = problems := by
  obtain ⟨places, sorted, broken, found⟩ := reports
  obtain ⟨more, moreSorted, moreBroken, moreFound⟩ := alsoReports
  have antisymm : Std.Antisymm Place.Before := by
    refine ⟨fun first second before after => ?_⟩
    simp only [Place.Before] at before after
    omega
  have irrefl : Std.Irrefl Place.Before := by
    refine ⟨fun place before => ?_⟩
    simp only [Place.Before] at before
    omega
  have same : more = places := moreSorted.eq_of_mem_iff sorted fun place => by
    rw [moreBroken, broken]
  subst same
  have functional : Relator.RightUnique manifest.Breaks :=
    fun _ _ _ breaks alsoBreaks => alsoBreaks.unique breaks
  exact List.right_unique_forall₂' functional moreFound found

/-- Nothing is wrong with a manifest exactly if it obeys the rules. -/
theorem problems_eq_nil_iff : manifest.problems = [] ↔ manifest.Obeys := by
  obtain ⟨places, _, broken, found⟩ := reports_problems manifest
  have none : manifest.problems = [] ↔ places = [] := by
    constructor
    · intro empty
      rw [empty] at found
      exact List.forall₂_nil_right_iff.mp found
    · rintro rfl
      exact List.forall₂_nil_left_iff.mp found
  rw [none, obeys_iff_intact, List.eq_nil_iff_forall_not_mem]
  simp only [broken, true_and, not_exists]

theorem verdict_eq_valid_iff : manifest.verdict = .valid ↔ manifest.problems = [] := by
  rw [verdict]
  cases manifest.problems with
  | nil => simp
  | cons problem further => simp

theorem verdict_eq_invalid_iff :
    manifest.verdict = .invalid problems ↔ problems ≠ [] ∧ manifest.problems = problems := by
  rw [verdict]
  cases manifest.problems with
  | nil => simp +contextual [eq_comm]
  | cons problem further =>
      simp only [ManifestVerdict.invalid.injEq]
      refine (and_iff_right_of_imp ?_).symm
      rintro rfl
      exact List.cons_ne_nil _ _

/-- A manifest is valid exactly if it obeys the rules.  Otherwise there is something wrong with
it: one problem for each place where it breaks a rule, in the order of the places. -/
theorem verdict_exact (manifest : Manifest) :
    (manifest.verdict = .valid ↔ manifest.Obeys) ∧
      ∀ problems, manifest.verdict = .invalid problems ↔ problems ≠ [] ∧
        ∃ places : List Place, places.Pairwise Place.Before ∧
          (∀ place, place ∈ places ↔ ∃ problem, manifest.Breaks place problem) ∧
          List.Forall₂ manifest.Breaks places problems := by
  refine ⟨verdict_eq_valid_iff.trans problems_eq_nil_iff, fun problems => ?_⟩
  have report := reports_problems manifest
  have every : manifest.Reports (fun _ => True) problems ↔ manifest.problems = problems :=
    ⟨fun reports => reports.unique report, fun same => same ▸ report⟩
  rw [verdict_eq_invalid_iff, ← every]
  simp only [Reports, true_and]

/-- A bad name, a target that is no name, and a setting with a gap in its path and no type. -/
example :
    let manifest : Manifest :=
      { name := "-bad name", description := none, deprecated := false
        overrides := ["fine", "not fine"]
        configs := .ofList [("a..b", "u16"), ("c", " ")]
        bindings := .empty }
    manifest.verdict = .invalid [.invalidName "-bad name", .invalidTarget "not fine",
      .invalidPath "a..b", .untypedPath "c"] := by
  decide +kernel

end Manifest

end Overlay
