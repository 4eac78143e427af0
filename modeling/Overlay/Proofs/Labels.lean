import Overlay.Proofs.Precedence
import Overlay.Proofs.Trace

/-!
# Who is said to provide a module

A contribution without a provider is stamped on its way into an assembly: by the registration
it comes with, by the directory in which its manifest was found, or else by its origin.  The
first stamp counts, and none replaces a name that was given.  Whatever provider a resolution
names was given or stamped in this way.
-/

namespace Overlay

/-- What names a provider for a contribution that comes without one. -/
inductive Stamp where
  | origin (place : Origin)
  | registration (name : String)
  | directory (path : String)

/-- The provider that a stamp names. -/
def Stamp.label : Stamp → String
  | .origin place => place.label
  | .registration name => name
  | .directory path => "manifest:" ++ path

/-- Only a registration can be labelled as the unknown provider is. -/
theorem Stamp.label_eq_unknownProvider {stamp : Stamp}
    (unknown : stamp.label = Descriptor.unknownProvider) :
    stamp = .registration Descriptor.unknownProvider := by
  cases stamp with
  | origin place => cases place <;> exact absurd unknown (by decide)
  | registration name => exact congrArg registration unknown
  | directory path =>
      have characters := congrArg String.toList unknown
      rw [label, String.toList_append] at characters
      exact absurd (congrArg List.head? characters) (by simp [Descriptor.unknownProvider])

/-- A contribution as it is handed over, with the first stamp on its way. -/
structure Offer where
  contribution : Contribution
  stamp : Stamp

namespace Offer

/-- The provider that was given, and otherwise that of the stamp. -/
def provider (offer : Offer) : String := offer.contribution.provider.getD offer.stamp.label

/-- The contribution with its provider settled and everything else as it was. -/
def labelled (offer : Offer) : Contribution :=
  { offer.contribution with provider := some offer.provider }

end Offer

namespace Contribution

variable (contribution : Contribution)

theorem orProvider_label (stamp : Stamp) :
    contribution.orProvider stamp.label = Offer.labelled ⟨contribution, stamp⟩ := by
  rw [orProvider, Offer.labelled, Offer.provider]
  cases contribution.provider <;> rfl

/-- Of two stamps the first counts. -/
theorem orProvider_orProvider (first second : Stamp) :
    (contribution.orProvider first.label).orProvider second.label =
      Offer.labelled ⟨contribution, first⟩ := by
  rw [orProvider_label, orProvider_label]
  rfl

end Contribution

/-! ## Offers of sources -/

namespace Discovery

mutual

/-- What a source offers.  Without an answer it offers nothing. -/
def offers (files : FileSystem) : Discovery → List Offer
  | .fixed (.ok found) => found.map (⟨·, .origin .discovered⟩)
  | .fixed (.error _) => []
  | .registered registrations =>
      (byLabel registrations).map fun each => ⟨each.contribution, .registration each.label⟩
  | .directory path =>
      match (manifests files path).value with
      | .ok found => found.map fun each => ⟨each.manifest.toContribution, .directory path⟩
      | .error _ => []
  | .chained sources => offersOfAll files sources

/-- What several sources offer, one source after the other. -/
def offersOfAll (files : FileSystem) : List Discovery → List Offer
  | [] => []
  | source :: rest => offers files source ++ offersOfAll files rest

end

theorem finds_of_runAll_cons {files : FileSystem} {source : Discovery} {rest : List Discovery}
    {found : List Contribution} (answer : (runAll files (source :: rest)).value = .ok found) :
    ∃ first others, found = first ++ others ∧ Finds files source first ∧
      (runAll files rest).value = .ok others := by
  rw [runAll_cons, joined] at answer
  cases outcome : (run files source).value with
  | error fault =>
      rw [outcome] at answer
      cases answer
  | ok first =>
      rw [outcome] at answer
      cases remaining : (runAll files rest).value with
      | error fault =>
          rw [remaining] at answer
          cases answer
      | ok others =>
          rw [remaining] at answer
          cases answer
          exact ⟨first, others, rfl, outcome, rfl⟩

mutual

/-- What a source finds is what it offers; a source that stamps nothing leaves this to the
origin. -/
theorem map_orProvider_of_finds {files : FileSystem} {source : Discovery}
    {found : List Contribution} (finds : Finds files source found) :
    found.map (·.orProvider Origin.discovered.label) =
      (offers files source).map Offer.labelled := by
  match source with
  | .fixed (.ok answer) =>
      cases finds
      rw [offers, List.map_map]
      exact List.map_congr_left fun each _ => each.orProvider_label (.origin .discovered)
  | .fixed (.error fault) => cases finds
  | .registered registrations =>
      cases finds
      rw [offers, fromRegistrations, Journaled.value_bind, List.map_map]
      refine List.map_map.trans (List.map_congr_left fun each _ => ?_)
      exact each.contribution.orProvider_orProvider (.registration each.label) (.origin .discovered)
  | .directory path =>
      rw [Finds, run, fromDirectory_eq, Journaled.value_bind] at finds
      cases outcome : (manifests files path).value with
      | error fault =>
          rw [outcome] at finds
          cases finds
      | ok manifests =>
          rw [outcome] at finds
          cases finds
          rw [offers, outcome, List.map_map, List.map_map]
          apply List.map_congr_left
          intro each _
          exact Contribution.orProvider_orProvider _ (.directory path) (.origin .discovered)
  | .chained sources =>
      rw [Finds, run] at finds
      exact map_orProvider_of_runAll finds

theorem map_orProvider_of_runAll {files : FileSystem} {sources : List Discovery}
    {found : List Contribution} (answer : (runAll files sources).value = .ok found) :
    found.map (·.orProvider Origin.discovered.label) =
      (offersOfAll files sources).map Offer.labelled := by
  match sources with
  | [] =>
      cases answer
      rfl
  | source :: rest =>
      obtain ⟨first, others, rfl, finds, remaining⟩ := finds_of_runAll_cons answer
      rw [offersOfAll, List.map_append, List.map_append, map_orProvider_of_finds finds,
        map_orProvider_of_runAll remaining]

end

end Discovery

/-! ## Providers that a resolution names -/

/-- The providers that an event names. -/
def Event.providers : Event → List String
  | .accepted _ provider => [provider]
  | .skippedDuplicate _ provider retained => [provider, retained]
  | .overrideApplied _ provider _ => [provider]
  | .ignoredOverride .. | .deprecated .. | .validationFailed _ => []

/-- The providers that a fault names. -/
def Fault.providers : Fault → List String
  | .doubleOverride fault => fault.targetProvider :: fault.overriders.map Overrider.provider
  | .cycle _ | .discovery _ | .manifest _ => []

/-- The providers that an outcome names. -/
def providersOf : Except Fault (List EffectiveModule) → List String
  | .ok effective => effective.map EffectiveModule.provider
  | .error fault => fault.providers

/-- The providers of effective modules are those of the outermost modules. -/
theorem map_provider_of_resolved {contributions : List Contribution}
    {effective : List EffectiveModule}
    (resolved : (resolve contributions).value = .ok effective) :
    effective.map EffectiveModule.provider =
      (Declared.outermost (retained contributions)).map Contribution.providerName := by
  have folds := (folds_of_resolved resolved).2.2
  exact (map_eq_of_forall₂ (folds.imp fun module effect folded =>
    (Declared.takesEffect_of_foldsTo folded).provider.symm)).symm

/-- A contested module and its claimants are among the modules on the list. -/
theorem Declared.FirstContest.providers_subset {modules : List Contribution}
    {target : Contribution} {fault : DoubleOverride} (contest : FirstContest modules target fault) :
    (Fault.doubleOverride fault).providers ⊆ modules.map Contribution.providerName := by
  obtain ⟨earlier, later, split, _⟩ := contest.first
  have listed : target ∈ modules := split ▸ List.mem_append_right earlier List.mem_cons_self
  have claimed : fault.overriders.map Overrider.provider =
      (claimants modules target).map Contribution.providerName := by
    rw [contest.overriders, List.map_map]
    rfl
  rw [Fault.providers, contest.target_provider, claimed]
  exact List.cons_subset.mpr
    ⟨List.mem_map_of_mem listed, List.map_subset _ (List.filter_subset_self _)⟩

/-- Whatever provider the outcome of resolution names is that of a retained contribution. -/
theorem providersOf_resolve (contributions : List Contribution) :
    providersOf (resolve contributions).value ⊆
      (retained contributions).map Contribution.providerName := by
  cases outcome : (resolve contributions).value with
  | ok effective =>
      rw [providersOf, map_provider_of_resolved outcome]
      exact List.map_subset _ (List.filter_subset_self _)
  | error fault =>
      have judged := judged_resolve contributions
      rw [outcome] at judged
      cases judged with
      | doubleOverride contest => exact contest.providers_subset
      | cycle => exact List.nil_subset _

namespace Trace

theorem providers_admission (earlier : List Contribution) (offered : Contribution) :
    (admission earlier offered).flatMap Event.providers ⊆
      (earlier ++ [offered]).map Contribution.providerName := by
  have own : offered.providerName ∈ (earlier ++ [offered]).map Contribution.providerName :=
    List.mem_map_of_mem (List.mem_append_right earlier List.mem_cons_self)
  rw [admission]
  cases found : earlier.find? fun other => other.key = offered.key with
  | some first =>
      have listed : first ∈ earlier ++ [offered] :=
        List.mem_append_left _ (List.mem_of_find?_eq_some found)
      exact List.cons_subset.mpr ⟨own, List.cons_subset.mpr
        ⟨List.mem_map_of_mem listed, List.nil_subset _⟩⟩
  | none =>
      cases offered.deprecated with
      | true => exact List.cons_subset.mpr ⟨own, List.nil_subset _⟩
      | false => exact List.cons_subset.mpr ⟨own, List.nil_subset _⟩

theorem providers_admissions (earlier offered : List Contribution) :
    (admissions earlier offered).flatMap Event.providers ⊆
      (earlier ++ offered).map Contribution.providerName := by
  induction offered generalizing earlier with
  | nil => exact List.nil_subset _
  | cons contribution rest ih =>
      have first := providers_admission earlier contribution
      have others := ih (earlier ++ [contribution])
      rw [List.append_assoc, List.singleton_append] at others
      rw [admissions, List.flatMap_append, List.append_subset]
      refine ⟨List.Subset.trans first (List.map_subset _ ?_), others⟩
      rw [List.append_cons earlier contribution rest]
      exact List.subset_append_left _ _

theorem providers_declarations (modules : List Contribution) :
    (declarations modules).flatMap Event.providers ⊆ modules.map Contribution.providerName := by
  intro provider named
  simp only [declarations, List.mem_flatMap, List.mem_map] at named
  obtain ⟨event, ⟨module, member, target, _, rfl⟩, named⟩ := named
  rw [declaration] at named
  cases found : modules.find? fun other => other.key = target.key with
  | some other =>
      rw [found] at named
      exact List.mem_singleton.mp named ▸ List.mem_map_of_mem member
  | none =>
      rw [found] at named
      exact (List.not_mem_nil named).elim

theorem providers_verdict (outcome : Except Fault (List EffectiveModule)) :
    (verdict outcome).flatMap Event.providers = [] := by
  cases outcome with
  | ok effective => rfl
  | error fault => rfl

end Trace

/-- Whatever provider an event of resolution names is that of a contribution. -/
theorem providers_events_resolve (contributions : List Contribution) :
    (resolve contributions).events.flatMap Event.providers ⊆
      contributions.map Contribution.providerName := by
  have retains := List.map_subset Contribution.providerName (retained_sublist contributions).subset
  rw [events_resolve, List.flatMap_append, List.flatMap_append, Trace.providers_verdict,
    List.append_nil, List.append_subset]
  exact ⟨Trace.providers_admissions [] contributions,
    List.Subset.trans (Trace.providers_declarations _) retains⟩

/-! ## Refusals -/

namespace Trace

theorem validationFailed_notMem_admissions (message : String)
    (earlier offered : List Contribution) :
    Event.validationFailed message ∉ admissions earlier offered := by
  induction offered generalizing earlier with
  | nil => exact List.not_mem_nil
  | cons contribution rest ih =>
      rw [admissions, List.mem_append, not_or]
      refine ⟨?_, ih _⟩
      rw [admission]
      cases earlier.find? fun other => other.key = contribution.key with
      | some first => simp
      | none => cases contribution.deprecated <;> simp

theorem validationFailed_notMem_declarations (message : String) (modules : List Contribution) :
    Event.validationFailed message ∉ declarations modules := by
  intro told
  simp only [declarations, List.mem_flatMap, List.mem_map] at told
  obtain ⟨module, _, target, _, same⟩ := told
  rw [declaration] at same
  cases found : modules.find? fun other => other.key = target.key with
  | some other =>
      rw [found] at same
      cases same
  | none =>
      rw [found] at same
      cases same

end Trace

/-- A refusal is told only of a fault, and in its words. -/
theorem exists_fault_of_validationFailed {contributions : List Contribution} {message : String}
    (told : .validationFailed message ∈ (resolve contributions).events) :
    ∃ fault, (resolve contributions).value = .error fault ∧ fault.message = message := by
  rw [events_resolve, List.mem_append, List.mem_append] at told
  rcases told with (admitted | declared) | refused
  · exact (Trace.validationFailed_notMem_admissions message [] contributions admitted).elim
  · exact (Trace.validationFailed_notMem_declarations message _ declared).elim
  · cases outcome : (resolve contributions).value with
    | ok effective =>
        rw [outcome] at refused
        exact (List.not_mem_nil refused).elim
    | error fault =>
        rw [outcome] at refused
        exact ⟨fault, rfl, (Event.validationFailed.inj (List.mem_singleton.mp refused)).symm⟩

end Overlay
