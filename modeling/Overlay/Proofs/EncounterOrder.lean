import Overlay.Proofs.Resolution

/-!
# Encounter order

In which order contributions to different modules are encountered decides in which order
their effects are listed, and nothing else.  What a module overrides, and so the cycles,
the double overrides and the tree below a module, are properties of the contributions as
a set.
-/

namespace Overlay

namespace Declared

/-- The outcomes of two runs differ at most in the order of what they list. -/
inductive SameOutcome (first second : List Contribution) :
    Except Fault (List EffectiveModule) → Except Fault (List EffectiveModule) → Prop where
  /-- A module has one effect in both runs; each run lists its own outermost modules. -/
  | resolved {left right : List EffectiveModule} (effect : Contribution → EffectiveModule)
      (takesEffect : ∀ module ∈ outermost first, TakesEffect first module (effect module))
      (ofFirst : left = (outermost first).map effect)
      (ofSecond : right = (outermost second).map effect)
      (reordered : left.Perm right) : SameOutcome first second (.ok left) (.ok right)
  | doubleOverride (left right : DoubleOverride) :
      SameOutcome first second (.error (.doubleOverride left)) (.error (.doubleOverride right))
  | cycle {left right : OverrideCycle} (reordered : left.unresolved.Perm right.unresolved) :
      SameOutcome first second (.error (.cycle left)) (.error (.cycle right))

section Reordered

variable {first second : List Contribution} (perm : first.Perm second)
include perm

theorem overrides_of_perm : Overrides first = Overrides second := by
  funext overrider target
  rw [Overrides, Overrides, perm.mem_iff, perm.mem_iff]

theorem cyclic_of_perm : Cyclic first ↔ Cyclic second := by
  rw [Cyclic, Cyclic, overrides_of_perm perm]

theorem belowCycle_of_perm : BelowCycle first = BelowCycle second := by
  funext module
  rw [BelowCycle, BelowCycle, overrides_of_perm perm]

theorem singlyOverridden_of_perm : SinglyOverridden first ↔ SinglyOverridden second := by
  rw [SinglyOverridden, SinglyOverridden, overrides_of_perm perm]

theorem outermost_perm : (outermost first).Perm (outermost second) := by
  have same : outermost second = second.filter fun module =>
      ¬ ∃ overrider ∈ first, overrider.Declares module := by
    apply List.filter_congr
    intro module _
    simp only [perm.mem_iff]
  rw [same]
  exact perm.filter _

theorem bases_of_perm (distinct : (first.map Contribution.key).Nodup) :
    bases first = bases second := by
  funext module
  apply List.filterMap_congr
  intro target _
  exact find?_key_of_perm perm distinct target.key

end Reordered

/-- Folding two orders of one set of modules lists the same effects in two orders. -/
theorem sameOutcome_of_folded {first second : List Contribution} (perm : first.Perm second)
    {left right : List EffectiveModule}
    (folded : List.Forall₂ (FoldsTo Descriptor.ofContribution (bases first))
      (outermost first) left)
    (alsoFolded : List.Forall₂ (FoldsTo Descriptor.ofContribution (bases first))
      (outermost second) right) : SameOutcome first second (.ok left) (.ok right) := by
  rcases FoldsTo.exists_effect Descriptor.ofContribution (bases first) with ⟨effect, describes⟩
  have ofFirst := describes _ _ folded
  have ofSecond := describes _ _ alsoFolded
  apply SameOutcome.resolved effect
  case takesEffect =>
    rw [ofFirst, List.forall₂_map_right_iff, List.forall₂_same] at folded
    exact fun module member => takesEffect_of_foldsTo (folded module member)
  case ofFirst => exact ofFirst
  case ofSecond => exact ofSecond
  case reordered =>
    rw [ofFirst, ofSecond]
    exact (outermost_perm perm).map effect

end Declared

open Declared

/-- Encountering contributions to different modules in another order gives the same
outcome, listed in the other order. -/
theorem resolve_of_perm {first second : List Contribution} (perm : first.Perm second)
    (distinct : (first.map Contribution.key).Nodup) :
    SameOutcome first second (resolve first).value (resolve second).value := by
  have kept := retained_eq_self distinct
  have alsoKept := retained_eq_self ((perm.map Contribution.key).nodup_iff.mp distinct)
  by_cases single : SinglyOverridden first
  case neg =>
    have alsoDouble := (not_congr (singlyOverridden_of_perm perm)).mp single
    rcases resolve_of_not_singlyOverridden kept single with ⟨left, refused⟩
    rcases resolve_of_not_singlyOverridden alsoKept alsoDouble with ⟨right, alsoRefused⟩
    rw [refused, alsoRefused]
    exact .doubleOverride left right
  have alsoSingle := (singlyOverridden_of_perm perm).mp single
  by_cases cyclic : Cyclic first
  case pos =>
    have alsoCyclic := (cyclic_of_perm perm).mp cyclic
    rcases resolve_of_cyclic kept single cyclic with ⟨left, refused, names⟩
    rcases resolve_of_cyclic alsoKept alsoSingle alsoCyclic with ⟨right, alsoRefused, alsoNames⟩
    rw [refused, alsoRefused]
    apply SameOutcome.cycle
    rw [names, alsoNames, belowCycle_of_perm perm]
    exact (perm.filter _).map _
  have alsoAcyclic := (not_congr (cyclic_of_perm perm)).mp cyclic
  rcases resolve_of_not_cyclic kept single cyclic with ⟨left, resolved, folded⟩
  rcases resolve_of_not_cyclic alsoKept alsoSingle alsoAcyclic with
    ⟨right, alsoResolved, alsoFolded⟩
  rw [← bases_of_perm perm distinct] at alsoFolded
  rw [resolved, alsoResolved]
  exact sameOutcome_of_folded perm folded alsoFolded

/-- A tree, and a module that stands alone, encountered from either end. -/
theorem resolve_of_reversed :
    let first : List Contribution :=
      [.plain "middle" ["lower"], .plain "alone" [], .plain "upper" ["middle"],
        .plain "lower" []]
    first.Perm first.reverse ∧ (first.map Contribution.key).Nodup ∧
      SameOutcome first first.reverse (resolve first).value (resolve first.reverse).value := by
  intro first
  have perm := first.reverse_perm.symm
  have distinct : (first.map Contribution.key).Nodup := by decide
  exact ⟨perm, distinct, resolve_of_perm perm distinct⟩

end Overlay
