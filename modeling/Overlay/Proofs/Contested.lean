import Overlay.Proofs.Resolution

/-!
# Contested modules

The check for double overrides, read off the contributions.  It refuses exactly the lists
on which two retained modules claim to override the same one, and reports the first such
module with everyone who claims it.  What a module claims is a set, and what is discarded as
a duplicate claims nothing.
-/

namespace Overlay

open OverrideGraph

/-- The outcome of the check for double overrides on the graph of contributions. -/
def checkContributions (contributions : List Contribution) : Except DoubleOverride Unit :=
  (build (Roster.ofContributions contributions).value).value.checkSingleOverride.value

namespace Declared

/-- Two different modules on the list claim to override the module. -/
def Contested (modules : List Contribution) (target : Contribution) : Prop :=
  ∃ first ∈ modules, ∃ second ∈ modules, first.key ≠ second.key ∧
    first.Declares target ∧ second.Declares target

instance (modules : List Contribution) (target : Contribution) :
    Decidable (Contested modules target) :=
  inferInstanceAs (Decidable (∃ first ∈ modules, ∃ second ∈ modules, _))

/-- The modules on the list that claim to override a module. -/
def claimants (modules : List Contribution) (target : Contribution) : List Contribution :=
  modules.filter fun module => module.Declares target

/-- A module as a report names it. -/
def namedAs (module : Contribution) : Overrider where
  name := module.moduleName
  provider := module.provider.getD Descriptor.unknownProvider

/-- What is reported about a contested module. -/
def report (modules : List Contribution) (target : Contribution) : DoubleOverride where
  target := (namedAs target).name
  targetProvider := (namedAs target).provider
  overriders := (claimants modules target).map namedAs

/-- The report about the first contested module on the list. -/
def firstReport? (modules : List Contribution) : Option DoubleOverride :=
  modules.findSome? fun target =>
    if Contested modules target then some (report modules target) else none

/-- The fault reports the first contested module on the list and all its claimants. -/
structure FirstContest (modules : List Contribution) (target : Contribution)
    (fault : DoubleOverride) : Prop where
  first : ∃ earlier later, modules = earlier ++ target :: later ∧
    ∀ module ∈ earlier, ¬ Contested modules module
  contested : Contested modules target
  target_name : fault.target = target.moduleName
  target_provider : fault.targetProvider = target.provider.getD Descriptor.unknownProvider
  overriders : fault.overriders = (claimants modules target).map namedAs
  several : 2 ≤ fault.overriders.length

/-- Modules on a list without repetitions contest another one if they are at least two. -/
theorem two_le_length_claimants_iff {modules : List Contribution}
    (distinct : (modules.map Contribution.key).Nodup) {target : Contribution} :
    2 ≤ (claimants modules target).length ↔ Contested modules target := by
  have mem_claimants : ∀ {module}, module ∈ claimants modules target ↔
      module ∈ modules ∧ module.Declares target := by
    intro module
    rw [claimants, List.mem_filter, decide_eq_true_eq]
  have different : ((claimants modules target).map Contribution.key).Nodup :=
    distinct.sublist (List.filter_sublist.map Contribution.key)
  generalize claimants modules target = claiming at mem_claimants different ⊢
  constructor
  · intro several
    match claiming, several with
    | first :: second :: rest, _ =>
        rcases mem_claimants.mp List.mem_cons_self with ⟨firstMember, firstDeclares⟩
        rcases mem_claimants.mp (List.mem_cons_of_mem _ List.mem_cons_self) with
          ⟨secondMember, secondDeclares⟩
        refine ⟨first, firstMember, second, secondMember, ?_, firstDeclares, secondDeclares⟩
        intro same
        exact (List.nodup_cons.mp different).1 (same ▸ List.mem_cons_self)
  · intro contested
    rcases contested with ⟨first, firstMember, second, secondMember, apart, firstDeclares,
      secondDeclares⟩
    have firstClaims := mem_claimants.mpr ⟨firstMember, firstDeclares⟩
    have secondClaims := mem_claimants.mpr ⟨secondMember, secondDeclares⟩
    match claiming, firstClaims, secondClaims with
    | [_], firstClaims, secondClaims =>
        rw [List.mem_singleton] at firstClaims secondClaims
        exact (apart (by rw [firstClaims, secondClaims])).elim
    | _ :: _ :: _, _, _ => exact Nat.le_add_left 2 _

theorem firstReport?_eq_none_iff {modules : List Contribution} :
    firstReport? modules = none ↔ ∀ target ∈ modules, ¬ Contested modules target := by
  simp only [firstReport?, List.findSome?_eq_none_iff, ite_eq_right_iff, reduceCtorEq, imp_false]

theorem firstReport?_eq_some_iff {modules : List Contribution}
    (distinct : (modules.map Contribution.key).Nodup) {fault : DoubleOverride} :
    firstReport? modules = some fault ↔ ∃ target, FirstContest modules target fault := by
  rw [firstReport?, List.findSome?_eq_some_iff]
  constructor
  · intro found
    rcases found with ⟨earlier, target, later, split, reported, silent⟩
    rcases Option.ite_none_right_eq_some.mp reported with ⟨contested, same⟩
    cases same
    refine ⟨target, ?_⟩
    constructor
    case first =>
      refine ⟨earlier, later, split, fun module member uncontested => ?_⟩
      have unreported := silent module member
      rw [if_pos uncontested] at unreported
      cases unreported
    case contested => exact contested
    case target_name => rfl
    case target_provider => rfl
    case overriders => rfl
    case several =>
      rw [report, List.length_map]
      exact (two_le_length_claimants_iff distinct).mpr contested
  · intro found
    rcases found with ⟨target, contest⟩
    rcases contest.first with ⟨earlier, later, split, silent⟩
    refine ⟨earlier, target, later, split, ?_, fun module member => if_neg (silent module member)⟩
    have same : report modules target = fault := by
      cases fault
      rw [report, DoubleOverride.mk.injEq]
      exact ⟨contest.target_name.symm, contest.target_provider.symm, contest.overriders.symm⟩
    rw [if_pos contest.contested, same]

/-! ## What the report depends on -/

/-- Contributions to one module, named alike, that claim the same modules: how often and in
which order they name them may differ. -/
structure SameClaims (left right : Contribution) : Prop where
  key : left.key = right.key
  named : namedAs left = namedAs right
  declares : ∀ target, left.Declares target ↔ right.Declares target

section SameClaims

variable {lefts rights : List Contribution} (each : List.Forall₂ SameClaims lefts rights)
include each

theorem claimants_of_sameClaims {left right : Contribution} (same : SameClaims left right) :
    List.Forall₂ SameClaims (claimants lefts left) (claimants rights right) := by
  refine List.rel_filter ?_ each
  intro first second claims
  have target : second.Declares left ↔ second.Declares right := by
    rw [Contribution.Declares, Contribution.Declares, same.key]
  simpa only [decide_eq_true_eq] using (claims.declares left).trans target

theorem report_of_sameClaims {left right : Contribution} (same : SameClaims left right) :
    report lefts left = report rights right := by
  have named : (claimants lefts left).map namedAs = (claimants rights right).map namedAs :=
    map_eq_of_forall₂ ((claimants_of_sameClaims each same).imp fun _ _ claims => claims.named)
  rw [report, report, same.named, named]

theorem firstReport?_of_sameClaims (leftDistinct : (lefts.map Contribution.key).Nodup)
    (rightDistinct : (rights.map Contribution.key).Nodup) :
    firstReport? lefts = firstReport? rights := by
  have reports : lefts.map (fun target =>
      if Contested lefts target then some (report lefts target) else none) =
      rights.map fun target =>
        if Contested rights target then some (report rights target) else none := by
    refine map_eq_of_forall₂ (each.imp fun left right same => ?_)
    have contested : Contested lefts left ↔ Contested rights right := by
      rw [← two_le_length_claimants_iff leftDistinct, ← two_le_length_claimants_iff rightDistinct,
        (claimants_of_sameClaims each same).length_eq]
    simp only [contested, report_of_sameClaims each same]
  have found := congrArg (List.findSome? id) reports
  rw [List.findSome?_map, List.findSome?_map] at found
  exact found

end SameClaims

/-- Of the targets that a draft names only their set counts. -/
theorem sameClaims_of_targets (draft : Draft) {targets others : List Identity}
    (same : ∀ key, key ∈ targets.map Identity.key ↔ key ∈ others.map Identity.key) :
    SameClaims (draft.apply (.overridesAll targets)).build
      (draft.apply (.overridesAll others)).build := by
  constructor
  case key => rfl
  case named => rfl
  case declares =>
    intro target
    have leftKeys := draft.overrides.mem_keys_extend targets target.key
    have rightKeys := draft.overrides.mem_keys_extend others target.key
    rw [← same] at rightKeys
    exact leftKeys.trans rightKeys.symm

/-! ## The graph of a roster that lists the contributions -/

section Roster

variable {modules : List Contribution} {roster : Roster}
  (listed : roster.elements = modules.map Descriptor.ofContribution)
include listed

theorem overrider_eq {index : Nat} (bound : index < modules.length) :
    (ofRoster roster).overrider index = namedAs (pick modules index) := by
  have nodes : (ofRoster roster).nodes = roster.elements := rfl
  rw [OverrideGraph.overrider, name_eq listed bound, nodes, listed, List.getElem?_map,
    getElem?_pick bound]
  rfl

/-- The overriders of a node are the claimants of its module. -/
theorem map_pick_incoming {index : Nat} (bound : index < modules.length) :
    ((ofRoster roster).incoming index).map (pick modules) =
      claimants modules (pick modules index) := by
  rw [incoming_of_tabulated (overriders_ofRoster roster), size_eq listed, if_pos bound,
    claimants, ← map_pick_filter_range]
  congr 1
  apply List.filter_congr
  intro source member
  rw [decide_eq_decide]
  constructor
  · intro edge
    exact ((overrides_iff listed).mp edge).2.2
  · intro declares
    exact (overrides_iff listed).mpr ⟨List.mem_range.mp member, bound, declares⟩

/-- A node is at fault exactly if its module is contested. -/
theorem doubleOverrideAt?_ofRoster {index : Nat} (bound : index < modules.length) :
    (ofRoster roster).doubleOverrideAt? index =
      if Contested modules (pick modules index) then some (report modules (pick modules index))
      else none := by
  have named : ((ofRoster roster).incoming index).map (ofRoster roster).overrider =
      (claimants modules (pick modules index)).map namedAs := by
    rw [← map_pick_incoming listed bound, List.map_map]
    apply List.map_congr_left
    intro source member
    have edge := (consistent_ofRoster roster).mem_incoming.mp member
    exact overrider_eq listed ((overrides_iff listed).mp edge).1
  have several : 2 ≤ (claimants modules (pick modules index)).length ↔
      Contested modules (pick modules index) := two_le_length_claimants_iff (keys_nodup listed)
  have sorted := (consistent_ofRoster roster).mergeSort_incoming index
  rw [← map_pick_incoming listed bound, List.length_map] at several
  simp only [doubleOverrideAt?, overrider_eq listed bound, report, ← several, ← named]
  generalize (ofRoster roster).incoming index = incoming at sorted
  cases incoming with
  | nil => rfl
  | cons first rest =>
      cases rest with
      | nil => rfl
      | cons second rest => simp [sorted]

/-- The fault of the graph is the report about the first contested module. -/
theorem doubleOverride?_ofRoster : (ofRoster roster).doubleOverride? = firstReport? modules := by
  have numbered : firstReport? modules = (List.range modules.length).findSome? fun index =>
      if Contested modules (pick modules index) then some (report modules (pick modules index))
      else none := by
    rw [firstReport?]
    conv_lhs => arg 2; rw [← map_pick_range modules]
    rw [List.findSome?_map]
    rfl
  rw [numbered, doubleOverride?, size_eq listed, ← List.head?_filterMap, ← List.head?_filterMap]
  congr 1
  apply List.filterMap_congr
  intro index member
  exact doubleOverrideAt?_ofRoster listed (List.mem_range.mp member)

end Roster

end Declared

open Declared

/-- The check looks at the retained contributions only. -/
theorem checkContributions_eq (contributions : List Contribution) :
    checkContributions contributions =
      match firstReport? (retained contributions) with
      | some fault => .error fault
      | none => .ok () := by
  have onGraph := value_checkSingleOverride (ofRoster (Roster.ofContributions contributions).value)
  rw [doubleOverride?_ofRoster (Roster.elements_ofContributions contributions)] at onGraph
  exact onGraph

/-- The check cannot tell contributions apart that claim the same modules. -/
theorem checkContributions_of_sameClaims {lefts rights : List Contribution}
    (each : List.Forall₂ SameClaims lefts rights) :
    checkContributions lefts = checkContributions rights := by
  have kept : List.Forall₂ SameClaims (retained lefts) (retained rights) :=
    forall₂_firsts (fun same => same.key) each
  rw [checkContributions_eq, checkContributions_eq,
    firstReport?_of_sameClaims kept (retained_nodup lefts) (retained_nodup rights)]

/-- What is demanded of a check for double overrides. -/
structure ExactCheck (check : List Contribution → Except DoubleOverride Unit) : Prop where
  accepts_iff : ∀ contributions, check contributions = .ok () ↔
    ∀ target ∈ retained contributions, ¬ Contested (retained contributions) target
  refuses_iff : ∀ contributions fault, check contributions = .error fault ↔
    ∃ target, FirstContest (retained contributions) target fault
  /-- It makes no difference how often and in which order a contribution names its targets. -/
  repeated : ∀ (earlier : List Contribution) (draft : Draft) (later : List Contribution)
    (targets others : List Identity),
    (∀ key, key ∈ targets.map Identity.key ↔ key ∈ others.map Identity.key) →
      check (earlier ++ (draft.apply (.overridesAll targets)).build :: later) =
        check (earlier ++ (draft.apply (.overridesAll others)).build :: later)
  /-- It makes no difference what a discarded contribution claims. -/
  discarded : ∀ earlier duplicate later, duplicate.key ∈ earlier.map Contribution.key →
    check (earlier ++ duplicate :: later) = check (earlier ++ later)

/-- The check accepts contributions exactly if no retained module is contested, and otherwise
reports the first one that is. -/
theorem checkContributions_exact : ExactCheck checkContributions := by
  constructor
  case accepts_iff =>
    intro contributions
    rw [checkContributions_eq, ← firstReport?_eq_none_iff]
    cases firstReport? (retained contributions) with
    | none => simp
    | some fault => simp
  case refuses_iff =>
    intro contributions fault
    rw [checkContributions_eq, ← firstReport?_eq_some_iff (retained_nodup contributions)]
    cases firstReport? (retained contributions) with
    | none => simp
    | some reported => simp
  case repeated =>
    intro earlier draft later targets others same
    have alike : ∀ {contributions}, List.Forall₂ SameClaims contributions contributions :=
      List.forall₂_same.mpr fun _ _ => ⟨rfl, rfl, fun _ => Iff.rfl⟩
    exact checkContributions_of_sameClaims
      (List.rel_append alike (.cons (sameClaims_of_targets draft same) alike))
  case discarded =>
    intro earlier duplicate later known
    rw [checkContributions_eq, checkContributions_eq, retained, retained,
      firsts_append_cons_of_mem known]

/-- Of two contributions to one module the first counts, and naming a target twice is
naming it once. -/
example :
    checkContributions [.plain "first" ["base", "base"], .plain "base" [],
      .plain "second" [], .plain "second" ["base"]] = .ok () := by
  decide

end Overlay
