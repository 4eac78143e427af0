import Overlay.Proofs.EncounterOrder

/-!
# Unrelated groups

Contributions may fall into two groups, none of which contributes or overrides a module of
the other.  Whatever the order in which the two are mixed, each is resolved as if the other
were not there.  A group is kept apart by a test on keys: retaining contributions, listing
bases and finding outermost modules commute with the test, and a chain of overrides never
leaves the group in which it begins.
-/

namespace Overlay

open Relation

/-- The list is made up of two others, whose members keep their order. -/
inductive Interleaved {α : Type} : List α → List α → List α → Prop where
  | nil : Interleaved [] [] []
  | left {head : α} {first second whole : List α} (rest : Interleaved first second whole) :
      Interleaved (head :: first) second (head :: whole)
  | right {head : α} {first second whole : List α} (rest : Interleaved first second whole) :
      Interleaved first (head :: second) (head :: whole)

/-- No contribution of one group is to a module of the other, or declares to override one. -/
def Unrelated (first second : List Contribution) : Prop :=
  ∀ left ∈ first, ∀ right ∈ second,
    left.key ≠ right.key ∧ ¬ left.Declares right ∧ ¬ right.Declares left

namespace Interleaved

variable {α : Type} {first second whole : List α}

theorem symm (interleaved : Interleaved first second whole) :
    Interleaved second first whole := by
  induction interleaved with
  | nil => exact .nil
  | left _ ih => exact .right ih
  | right _ ih => exact .left ih

theorem mem_iff (interleaved : Interleaved first second whole) {member : α} :
    member ∈ whole ↔ member ∈ first ∨ member ∈ second := by
  induction interleaved with
  | nil => simp
  | left _ ih => rw [List.mem_cons, List.mem_cons, ih, or_assoc]
  | right _ ih => rw [List.mem_cons, List.mem_cons, ih, or_left_comm]

/-- A test that tells the two lists apart recovers the first. -/
theorem filter_eq (interleaved : Interleaved first second whole) {keep : α → Bool}
    (accepted : ∀ member ∈ first, keep member = true)
    (refused : ∀ member ∈ second, keep member = false) : whole.filter keep = first := by
  induction interleaved with
  | nil => rfl
  | left _ ih =>
      rw [List.forall_mem_cons] at accepted
      rw [List.filter_cons, accepted.1, if_pos rfl, ih accepted.2 refused]
  | right _ ih =>
      rw [List.forall_mem_cons] at refused
      rw [List.filter_cons, refused.1, if_neg Bool.false_ne_true, ih accepted refused.2]

end Interleaved

namespace Declared

/-- The modules on the list whose keys pass a test. -/
def group (keep : Identity.Key → Bool) (modules : List Contribution) : List Contribution :=
  modules.filter fun module => keep module.key

/-- No override leads from a module that passes the test to one that does not, or back. -/
def Separates (keep : Identity.Key → Bool) (modules : List Contribution) : Prop :=
  ∀ overrider target, Overrides modules overrider target → keep overrider.key = keep target.key

variable {keep : Identity.Key → Bool} {modules : List Contribution}

theorem mem_group {module : Contribution} :
    module ∈ group keep modules ↔ module ∈ modules ∧ keep module.key = true :=
  List.mem_filter

theorem group_subset : group keep modules ⊆ modules := List.filter_sublist.subset

theorem retained_group (keep : Identity.Key → Bool) (contributions : List Contribution) :
    retained (group keep contributions) = group keep (retained contributions) :=
  (filter_firsts Contribution.key keep contributions).symm

theorem overrides_mono {first second : List Contribution} (within : first ⊆ second)
    {overrider target : Contribution} (overrides : Overrides first overrider target) :
    Overrides second overrider target :=
  ⟨within overrides.1, within overrides.2.1, overrides.2.2⟩

theorem cyclic_mono {first second : List Contribution} (within : first ⊆ second)
    (cyclic : Cyclic first) : Cyclic second := by
  obtain ⟨module, around⟩ := cyclic
  exact ⟨module, around.lift id fun _ _ => overrides_mono within⟩

theorem singlyOverridden_mono {first second : List Contribution} (within : first ⊆ second)
    (single : SinglyOverridden second) : SinglyOverridden first := by
  intro left right target byLeft byRight
  exact single left right target (overrides_mono within byLeft) (overrides_mono within byRight)

namespace Separates

theorem complement (separates : Separates keep modules) :
    Separates (fun key => !keep key) modules := fun overrider target overrides =>
  congrArg not (separates overrider target overrides)

variable (separates : Separates keep modules)
include separates

theorem overrides_group {overrider target : Contribution}
    (overrides : Overrides modules overrider target) (kept : keep target.key = true) :
    Overrides (group keep modules) overrider target := by
  have alsoKept := (separates overrider target overrides).trans kept
  exact ⟨mem_group.mpr ⟨overrides.1, alsoKept⟩, mem_group.mpr ⟨overrides.2.1, kept⟩,
    overrides.2.2⟩

/-- A chain of overrides that ends in the group runs inside the group. -/
theorem transGen_group {overrider target : Contribution}
    (path : TransGen (Overrides modules) overrider target) (kept : keep target.key = true) :
    TransGen (Overrides (group keep modules)) overrider target := by
  induction path with
  | single overrides => exact .single (separates.overrides_group overrides kept)
  | tail _ overrides ih =>
      have alsoKept := (separates _ _ overrides).trans kept
      exact .tail (ih alsoKept) (separates.overrides_group overrides kept)

theorem cyclic_iff :
    Cyclic modules ↔
      Cyclic (group keep modules) ∨ Cyclic (group (fun key => !keep key) modules) := by
  constructor
  · intro cyclic
    obtain ⟨module, around⟩ := cyclic
    cases kept : keep module.key with
    | true => exact .inl ⟨module, separates.transGen_group around kept⟩
    | false => exact .inr ⟨module, separates.complement.transGen_group around (by rw [kept]; rfl)⟩
  · intro cyclic
    cases cyclic with
    | inl cyclic => exact cyclic_mono group_subset cyclic
    | inr cyclic => exact cyclic_mono group_subset cyclic

theorem singlyOverridden_iff :
    SinglyOverridden modules ↔ SinglyOverridden (group keep modules) ∧
      SinglyOverridden (group (fun key => !keep key) modules) := by
  constructor
  · intro single
    exact ⟨singlyOverridden_mono group_subset single, singlyOverridden_mono group_subset single⟩
  · intro both first second target byFirst bySecond
    cases kept : keep target.key with
    | true =>
        exact both.1 first second target (separates.overrides_group byFirst kept)
          (separates.overrides_group bySecond kept)
    | false =>
        have refused : (!keep target.key) = true := by rw [kept]; rfl
        exact both.2 first second target (separates.complement.overrides_group byFirst refused)
          (separates.complement.overrides_group bySecond refused)

/-- What a module of the group overrides is looked up in the group as in the whole list. -/
theorem bases_group {module : Contribution} (member : module ∈ group keep modules) :
    bases (group keep modules) module = bases modules module := by
  apply List.filterMap_congr
  intro target declared
  rw [group, ← List.head?_filter, ← List.head?_filter, List.filter_filter]
  congr 1
  apply List.filter_congr
  intro candidate candidateMember
  by_cases found : candidate.key = target.key
  · have declares : module.Declares candidate := List.mem_map.mpr ⟨target, declared, found.symm⟩
    have same := separates module candidate ⟨group_subset member, candidateMember, declares⟩
    rw [← same, (mem_group.mp member).2, Bool.and_true]
  · simp only [found, decide_false, Bool.false_and]

theorem outermost_group :
    outermost (group keep modules) = (outermost modules).filter fun module => keep module.key := by
  rw [outermost, outermost, group, List.filter_filter, List.filter_filter]
  apply List.filter_congr
  intro module member
  cases kept : keep module.key with
  | false => simp only [Bool.and_false, Bool.false_and]
  | true =>
      have same : (∃ overrider ∈ group keep modules, overrider.Declares module) ↔
          ∃ overrider ∈ modules, overrider.Declares module := by
        constructor
        · intro overridden
          obtain ⟨overrider, overriderMember, declares⟩ := overridden
          exact ⟨overrider, group_subset overriderMember, declares⟩
        · intro overridden
          obtain ⟨overrider, overriderMember, declares⟩ := overridden
          have inGroup := separates.overrides_group ⟨overriderMember, member, declares⟩ kept
          exact ⟨overrider, inGroup.1, declares⟩
      rw [Bool.and_true, Bool.true_and, decide_eq_decide]
      exact not_congr same

/-- What a module of the group folds to, it folds to in the whole list. -/
theorem foldsTo_of_group {module : Contribution} {effect : EffectiveModule}
    (folds : FoldsTo Descriptor.ofContribution (bases (group keep modules)) module effect)
    (member : module ∈ group keep modules) :
    FoldsTo Descriptor.ofContribution (bases modules) module effect := by
  refine folds.map id (· ∈ group keep modules) ?_ (fun _ _ => rfl) ?_ member
  · intro node _ base based
    obtain ⟨target, _, found⟩ := List.mem_filterMap.mp based
    exact List.mem_of_find?_eq_some found
  · intro node inGroup
    rw [List.map_id, separates.bases_group inGroup]
    rfl

end Separates

/-- Of the effective modules that contributions resolve to, those that stem from a group:
those of outermost modules that the group contributes. -/
def ofGroup (contributions group : List Contribution) (effective : List EffectiveModule) :
    List EffectiveModule :=
  (((outermost (retained contributions)).zip effective).filter fun pair =>
    pair.1.key ∈ group.map Contribution.key).map Prod.snd

end Declared

open Declared

/-- A group that is kept apart resolves to its share of what all contributions resolve to. -/
theorem resolve_group {keep : Identity.Key → Bool} {contributions : List Contribution}
    (separates : Separates keep (retained contributions)) {effective : List EffectiveModule}
    (resolved : (resolve contributions).value = .ok effective) :
    (resolve (group keep contributions)).value =
      .ok ((((outermost (retained contributions)).zip effective).filter fun pair =>
        keep pair.1.key).map Prod.snd) := by
  obtain ⟨single, acyclic, folded⟩ := folds_of_resolved resolved
  have kept := retained_group keep contributions
  have groupSingle := (separates.singlyOverridden_iff.mp single).1
  have groupAcyclic : ¬ Cyclic (group keep (retained contributions)) :=
    fun cyclic => acyclic (separates.cyclic_iff.mpr (.inl cyclic))
  obtain ⟨found, groupResolved, groupFolded⟩ := resolve_of_not_cyclic kept groupSingle groupAcyclic
  rw [groupResolved]
  obtain ⟨effect, describes⟩ :=
    FoldsTo.exists_effect Descriptor.ofContribution (bases (retained contributions))
  have ofAll := describes _ _ folded
  have ofGroup : found = (outermost (group keep (retained contributions))).map effect := by
    have within : ∀ module ∈ outermost (group keep (retained contributions)),
        module ∈ group keep (retained contributions) := fun module member =>
      (List.mem_filter.mp member).1
    have both := (List.forall₂_and_left _ _).mpr ⟨within, groupFolded⟩
    exact describes _ _ (both.imp fun _ _ held => separates.foldsTo_of_group held.2 held.1)
  rw [ofGroup, separates.outermost_group, ofAll, ← List.map_prod_left_eq_zip, List.filter_map,
    List.map_map]
  rfl

section Unrelated

variable {first second whole : List Contribution}

theorem Unrelated.symm (unrelated : Unrelated first second) : Unrelated second first := by
  intro right rightMember left leftMember
  obtain ⟨different, leftDeclares, rightDeclares⟩ := unrelated left leftMember right rightMember
  exact ⟨Ne.symm different, rightDeclares, leftDeclares⟩

section Mixed

variable (unrelated : Unrelated first second)
include unrelated

/-- The keys of one group are none of the other. -/
theorem Unrelated.key_not_mem {right : Contribution} (member : right ∈ second) :
    right.key ∉ first.map Contribution.key := by
  intro shared
  obtain ⟨left, leftMember, same⟩ := List.mem_map.mp shared
  exact (unrelated left leftMember right member).1 same

variable (interleaved : Interleaved first second whole)
include interleaved

theorem Unrelated.group_eq : group (fun key => key ∈ first.map Contribution.key) whole = first := by
  apply interleaved.filter_eq
  · exact fun left member => decide_eq_true (List.mem_map_of_mem member)
  · exact fun right member => decide_eq_false (unrelated.key_not_mem member)

theorem Unrelated.group_complement_eq :
    group (fun key => !decide (key ∈ first.map Contribution.key)) whole = second := by
  apply interleaved.symm.filter_eq
  · intro right member
    simp only [unrelated.key_not_mem member, decide_false, Bool.not_false]
  · intro left member
    simp only [List.mem_map_of_mem member, decide_true, Bool.not_true]

theorem Unrelated.retained_eq :
    retained first = group (fun key => key ∈ first.map Contribution.key) (retained whole) := by
  rw [← retained_group, unrelated.group_eq interleaved]

theorem Unrelated.retained_complement_eq :
    retained second =
      group (fun key => !decide (key ∈ first.map Contribution.key)) (retained whole) := by
  rw [← retained_group, unrelated.group_complement_eq interleaved]

/-- Overrides among what is retained stay inside a group. -/
theorem Unrelated.separates :
    Separates (fun key => key ∈ first.map Contribution.key) (retained whole) := by
  intro overrider target overrides
  obtain ⟨overriderMember, targetMember, declares⟩ := overrides
  have overriderGroup := interleaved.mem_iff.mp ((retained_sublist whole).subset overriderMember)
  have targetGroup := interleaved.mem_iff.mp ((retained_sublist whole).subset targetMember)
  cases overriderGroup with
  | inl ofFirst =>
      cases targetGroup with
      | inl alsoOfFirst =>
          simp only [List.mem_map_of_mem ofFirst, List.mem_map_of_mem alsoOfFirst]
      | inr ofSecond =>
          exact ((unrelated overrider ofFirst target ofSecond).2.1 declares).elim
  | inr ofSecond =>
      cases targetGroup with
      | inl ofFirst =>
          exact ((unrelated target ofFirst overrider ofSecond).2.2 declares).elim
      | inr alsoOfSecond =>
          simp only [unrelated.key_not_mem ofSecond, unrelated.key_not_mem alsoOfSecond]

/-- A group resolves to what stems from it. -/
theorem Unrelated.resolve_first {effective : List EffectiveModule}
    (resolved : (resolve whole).value = .ok effective) :
    (resolve first).value = .ok (ofGroup whole first effective) := by
  have share := resolve_group (unrelated.separates interleaved) resolved
  rwa [unrelated.group_eq interleaved] at share

end Mixed

/-- Two unrelated groups do not interfere, however they are mixed.  All contributions resolve
exactly if those of each group do, and what stems from a group is then what the group alone
resolves to.  A double override is refused exactly if one of the groups has one. -/
theorem resolve_of_interleaved (interleaved : Interleaved first second whole)
    (unrelated : Unrelated first second) :
    ((∃ effective, (resolve whole).value = .ok effective) ↔
      (∃ effective, (resolve first).value = .ok effective) ∧
        ∃ effective, (resolve second).value = .ok effective) ∧
    (∀ effective, (resolve whole).value = .ok effective →
      List.Forall₂ (TakesEffect (retained whole)) (outermost (retained whole)) effective ∧
        (resolve first).value = .ok (ofGroup whole first effective) ∧
        (resolve second).value = .ok (ofGroup whole second effective)) ∧
    ((∃ fault, (resolve whole).value = .error (.doubleOverride fault)) ↔
      (∃ fault, (resolve first).value = .error (.doubleOverride fault)) ∨
        ∃ fault, (resolve second).value = .error (.doubleOverride fault)) := by
  have separates := unrelated.separates interleaved
  rw [exists_resolved_iff, exists_resolved_iff, exists_resolved_iff, exists_doubleOverride_iff,
    exists_doubleOverride_iff, exists_doubleOverride_iff, unrelated.retained_eq interleaved,
    unrelated.retained_complement_eq interleaved, separates.singlyOverridden_iff,
    separates.cyclic_iff]
  refine ⟨?_, ?_, not_and_or⟩
  · rw [not_or]
    exact and_and_and_comm
  · intro effective resolved
    refine ⟨?_, unrelated.resolve_first interleaved resolved,
      unrelated.symm.resolve_first interleaved.symm resolved⟩
    exact (folds_of_resolved resolved).2.2.imp fun _ _ => takesEffect_of_foldsTo

/-- A tree and a pair that names an absent module of the same name, mixed. -/
theorem resolve_of_two_families :
    let upper := Contribution.plain "upper" ["lower", "absent"]
    let lower := Contribution.plain "lower" []
    let front := Contribution.plain "front" ["absent", "back"]
    let back := Contribution.plain "back" []
    let first := [upper, lower, lower]
    let second := [back, front]
    let whole := [upper, back, lower, front, lower]
    Interleaved first second whole ∧ Unrelated first second ∧
      ((∃ effective, (resolve whole).value = .ok effective) ↔
        (∃ effective, (resolve first).value = .ok effective) ∧
          ∃ effective, (resolve second).value = .ok effective) ∧
      (∀ effective, (resolve whole).value = .ok effective →
        List.Forall₂ (TakesEffect (retained whole)) (outermost (retained whole)) effective ∧
          (resolve first).value = .ok (ofGroup whole first effective) ∧
          (resolve second).value = .ok (ofGroup whole second effective)) ∧
      ((∃ fault, (resolve whole).value = .error (.doubleOverride fault)) ↔
        (∃ fault, (resolve first).value = .error (.doubleOverride fault)) ∨
          ∃ fault, (resolve second).value = .error (.doubleOverride fault)) := by
  intro upper lower front back first second whole
  have interleaved : Interleaved first second whole :=
    .left (.right (.left (.right (.left .nil))))
  have unrelated : Unrelated first second := by
    unfold Unrelated
    decide
  exact ⟨interleaved, unrelated, resolve_of_interleaved interleaved unrelated⟩

end Unrelated

end Overlay
