import Overlay.Proofs.OrderedSet
import Overlay.Roster

/-!
# Which contributions are retained

Offering contributions one after the other leaves the first one to each identity on the
roster, in order of first contribution.  `retained` says which these are without a
roster and without events.
-/

namespace Overlay

namespace Contribution

/-- What recognises the module that the contribution is about. -/
def key (contribution : Contribution) : Identity.Key := contribution.id.key

/-- A named module that binds nothing and overrides other named modules. -/
def plain (name : String) (overridden : List String) : Contribution :=
  ((Draft.identified (.named name) ⟨[], false⟩).apply
    (.overridesAll (overridden.map .named))).build

end Contribution

/-- The first contribution to each identity, in order of first contribution. -/
def retained (contributions : List Contribution) : List Contribution :=
  firsts Contribution.key contributions

theorem retained_sublist (contributions : List Contribution) :
    (retained contributions).Sublist contributions :=
  firsts_sublist Contribution.key contributions

theorem retained_nodup (contributions : List Contribution) :
    ((retained contributions).map Contribution.key).Nodup :=
  nodup_map_firsts Contribution.key contributions

/-- Contributions to different identities are all retained. -/
theorem retained_eq_self {contributions : List Contribution}
    (distinct : (contributions.map Contribution.key).Nodup) :
    retained contributions = contributions :=
  firsts_eq_self distinct

/-- Of a contribution to a new identity, what stands before and behind it is retained as if it
were not there, but for later contributions to its identity. -/
theorem retained_append_cons {earlier : List Contribution} {offered : Contribution}
    (unknown : offered.key ∉ earlier.map Contribution.key) (later : List Contribution) :
    retained (earlier ++ offered :: later) =
      retained earlier ++ offered :: ((retained later).filter fun other =>
        other.key ≠ offered.key).filter fun other => other.key ∉ earlier.map Contribution.key := by
  have kept : decide (offered.key ∉ earlier.map Contribution.key) = true := decide_eq_true unknown
  rw [retained, firsts_append, firsts, List.filter_cons, if_pos kept]
  rfl

namespace Roster

/-- The event aside, offering a contribution is inserting its descriptor. -/
theorem value_offer (roster : Roster) (contribution : Contribution) :
    (roster.offer contribution).value =
      roster.insert (Descriptor.ofContribution contribution) := by
  cases found : roster.find? (Descriptor.ofContribution contribution).key with
  | none =>
      rw [offer, found]
      rfl
  | some kept =>
      rcases roster.find?_eq_some_iff.mp found with ⟨member, same⟩
      have present : (Descriptor.ofContribution contribution).key ∈
          roster.elements.map Descriptor.key := same ▸ List.mem_map_of_mem member
      rw [offer, found, OrderedSet.insert, dif_pos present]
      rfl

theorem value_offerAll (roster : Roster) (contributions : List Contribution) :
    (roster.offerAll contributions).value =
      roster.extend (contributions.map Descriptor.ofContribution) := by
  induction contributions generalizing roster with
  | nil => rfl
  | cons contribution rest ih =>
      have stepped : (roster.offerAll (contribution :: rest)).value =
          ((roster.offer contribution).value.offerAll rest).value := rfl
      rw [stepped, ih, value_offer]
      rfl

/-- The roster lists exactly the retained contributions. -/
theorem elements_ofContributions (contributions : List Contribution) :
    (ofContributions contributions).value.elements =
      (retained contributions).map Descriptor.ofContribution := by
  have unlogged : (ofContributions contributions).value =
      (offerAll .empty contributions).value := rfl
  rw [unlogged, value_offerAll]
  exact (OrderedSet.elements_ofList Descriptor.key _).trans (firsts_map _ _ _)

end Roster

end Overlay
