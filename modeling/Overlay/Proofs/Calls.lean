import Overlay.Proofs.Expansion
import Overlay.Proofs.Labels

/-!
# Calls that assemble modules

A program assembles its modules call by call.  A call touches what is gathered for its own
origin only, so calls of different origins may change places: what comes to be collected is
told by the calls of each origin, one origin after the other.  From there on every contribution
carries a provider, which was given with it or is the first stamp on its way.
-/

namespace Overlay

variable {σ : Type}

/-- A call that adds modules to an assembly. -/
inductive Call where
  | contribute (contribution : Contribution)
  | provide (name : String)
  | override (target : Identity) (contribution : Contribution)
  | discover (source : Discovery)

namespace Call

/-- The origin of what a call adds. -/
def origin : Call → Origin
  | .contribute _ | .provide _ => .explicit
  | .override .. => .overriding
  | .discover _ => .discovered

/-- What an overriding call adds: its contribution, with the target among the overrides. -/
def declared? : Call → Option Contribution
  | .override target contribution =>
      some { contribution with overrides := contribution.overrides.insert target }
  | _ => none

/-- The source that a call adds. -/
def source? : Call → Option Discovery
  | .discover source => some source
  | _ => none

/-- What calls add explicitly, from a supply and the keys met so far: contributions as they
are, and in place of a provider what it expands to. -/
def registered (family : ProviderFamily σ) : List Call → σ → List ProviderKey → List Contribution
  | [], _, _ => []
  | .contribute contribution :: rest, supply, keys =>
      contribution :: registered family rest supply keys
  | .provide name :: rest, supply, keys =>
      let (expansion, left) := (Expansion.add family name supply ⟨[], keys⟩).value
      expansion.contributions ++ registered family rest left expansion.keys
  | .override .. :: rest, supply, keys | .discover _ :: rest, supply, keys =>
      registered family rest supply keys

end Call

namespace Assembly

/-- Performs a call. -/
def perform (family : ProviderFamily σ) (assembly : Assembly) (supply : σ) :
    Call → Journaled (Assembly × σ)
  | .contribute contribution => pure (assembly.contribute contribution, supply)
  | .provide name => assembly.provide family name supply
  | .override target contribution => pure (assembly.override target contribution, supply)
  | .discover source => pure (assembly.discover source, supply)

/-- Performs calls in order. -/
def performAll (family : ProviderFamily σ) :
    List Call → Assembly → σ → Journaled (Assembly × σ)
  | [], assembly, supply => pure (assembly, supply)
  | call :: rest, assembly, supply => do
      let (next, left) ← assembly.perform family supply call
      performAll family rest next left

/-! ## Every origin by itself -/

/-- What a call makes of the explicit contributions. -/
def register (family : ProviderFamily σ) (expansion : Expansion) (supply : σ) :
    Call → Journaled (Expansion × σ)
  | .contribute contribution =>
      pure ({ expansion with contributions := expansion.contributions ++ [contribution] }, supply)
  | .provide name => Expansion.add family name supply expansion
  | .override .. | .discover _ => pure (expansion, supply)

/-- What calls make of the explicit contributions. -/
def registerAll (family : ProviderFamily σ) :
    List Call → Expansion → σ → Journaled (Expansion × σ)
  | [], expansion, supply => pure (expansion, supply)
  | call :: rest, expansion, supply => do
      let (next, left) ← register family expansion supply call
      registerAll family rest next left

/-- The assembly with other explicit contributions, and with what calls add for the other
origins. -/
def gathering (assembly : Assembly) (explicit : Expansion) (calls : List Call) : Assembly :=
  { assembly with
    collector :=
      { assembly.collector with
        explicit
        overriding := assembly.collector.overriding ++ calls.filterMap Call.declared? }
    sources := assembly.sources ++ calls.filterMap Call.source? }

variable {family : ProviderFamily σ}

theorem gathering_nil (assembly : Assembly) (explicit : Expansion) :
    assembly.gathering explicit [] =
      { assembly with collector := { assembly.collector with explicit } } := by
  simp only [gathering, List.filterMap_nil, List.append_nil]

theorem gathering_gathering (assembly : Assembly) (first second : Expansion)
    (earlier later : List Call) :
    (assembly.gathering first earlier).gathering second later =
      assembly.gathering second (earlier ++ later) := by
  simp only [gathering, List.filterMap_append, List.append_assoc]

/-- A call touches one origin. -/
theorem perform_eq (assembly : Assembly) (supply : σ) (call : Call) :
    assembly.perform family supply call =
      let added := register family assembly.collector.explicit supply call
      ⟨(assembly.gathering added.value.1 [call], added.value.2), added.journal⟩ := by
  cases call with
    simp only [register, gathering, List.filterMap_cons, List.filterMap_nil, Call.declared?,
      Call.source?, List.append_nil]
  | contribute contribution => rfl
  | provide name => exact congrArg (Journaled.mk _) ((List.append_nil _).trans (List.append_nil _))
  | override target contribution => rfl
  | discover source => rfl

/-- Calls come to what those of each origin come to. -/
theorem performAll_eq (calls : List Call) (assembly : Assembly) (supply : σ) :
    performAll family calls assembly supply =
      let explicit := registerAll family calls assembly.collector.explicit supply
      ⟨(assembly.gathering explicit.value.1 calls, explicit.value.2), explicit.journal⟩ := by
  induction calls generalizing assembly supply with
  | nil =>
      dsimp only
      rw [gathering_nil]
      rfl
  | cons call rest ih =>
      let added := register family assembly.collector.explicit supply call
      let next := assembly.gathering added.value.1 [call]
      have further := ih next added.value.2
      have split : ∀ explicit, next.gathering explicit rest =
          assembly.gathering explicit (call :: rest) :=
        fun explicit => assembly.gathering_gathering added.value.1 explicit [call] rest
      dsimp only at further
      rw [split] at further
      have stepped : performAll family (call :: rest) assembly supply =
          ⟨(performAll family rest next added.value.2).value,
            added.journal ++ (performAll family rest next added.value.2).journal⟩ := by
        rw [performAll, perform_eq]
        rfl
      rw [stepped, further]
      rfl

/-- Explicit calls are all that matters to explicit contributions. -/
theorem registerAll_filter (calls : List Call) (expansion : Expansion) (supply : σ) :
    registerAll family (calls.filter fun call => call.origin = .explicit) expansion supply =
      registerAll family calls expansion supply := by
  induction calls generalizing expansion supply with
  | nil => rfl
  | cons call rest ih =>
      by_cases explicit : call.origin = .explicit
      · simp only [List.filter_cons, explicit, decide_true, if_true, registerAll, ih]
      · simp only [List.filter_cons, explicit, decide_false, Bool.false_eq_true, if_false, ih]
        cases call with
        | contribute contribution => exact (explicit rfl).elim
        | provide name => exact (explicit rfl).elim
        | override target contribution => rfl
        | discover source => rfl

end Assembly

namespace Call

theorem filterMap_declared?_filter (calls : List Call) :
    (calls.filter fun call => call.origin = .overriding).filterMap declared? =
      calls.filterMap declared? := by
  rw [List.filterMap_filter]
  congr 1
  funext call
  cases call <;> rfl

theorem filterMap_source?_filter (calls : List Call) :
    (calls.filter fun call => call.origin = .discovered).filterMap source? =
      calls.filterMap source? := by
  rw [List.filterMap_filter]
  congr 1
  funext call
  cases call <;> rfl

end Call

namespace Assembly

variable {family : ProviderFamily σ}

/-- Calls may change places with calls of other origins. -/
theorem performAll_of_filter_eq {first second : List Call}
    (same : ∀ origin, first.filter (fun call => call.origin = origin) =
      second.filter fun call => call.origin = origin) (assembly : Assembly) (supply : σ) :
    performAll family first assembly supply = performAll family second assembly supply := by
  have explicit : registerAll family first assembly.collector.explicit supply =
      registerAll family second assembly.collector.explicit supply := by
    rw [← registerAll_filter, same, registerAll_filter]
  have gathered : ∀ expansion,
      assembly.gathering expansion first = assembly.gathering expansion second := by
    intro expansion
    rw [gathering, gathering, ← Call.filterMap_declared?_filter, same,
      Call.filterMap_declared?_filter, ← Call.filterMap_source?_filter, same,
      Call.filterMap_source?_filter]
  rw [performAll_eq, performAll_eq, explicit]
  dsimp only
  rw [gathered]

/-- Explicit calls append what they register. -/
theorem contributions_registerAll (calls : List Call) (expansion : Expansion) (supply : σ) :
    (registerAll family calls expansion supply).value.1.contributions =
      expansion.contributions ++ Call.registered family calls supply expansion.keys := by
  induction calls generalizing expansion supply with
  | nil => exact (List.append_nil _).symm
  | cons call rest ih =>
      have stepped : (registerAll family (call :: rest) expansion supply).value =
          let next := (register family expansion supply call).value
          (registerAll family rest next.1 next.2).value := rfl
      rw [stepped]
      dsimp only
      rw [ih]
      cases call with
      | contribute contribution => exact List.append_assoc _ [contribution] _
      | provide name =>
          have front := Expansion.value_run_behind family expansion.contributions
            (2 * family.size) [name] supply ⟨[], expansion.keys⟩
          have whole : (⟨[], expansion.keys⟩ : Expansion).behind expansion.contributions =
              expansion := congrArg (Expansion.mk · expansion.keys) (List.append_nil _)
          rw [whole] at front
          rw [register, Expansion.add, front, Call.registered, Expansion.add]
          exact List.append_assoc _ _ _
      | override target contribution => rfl
      | discover source => rfl

end Assembly

/-! ## What calls offer -/

namespace Call

/-- What calls offer by their origins. -/
def offersBy (family : ProviderFamily σ) (calls : List Call) (supply : σ) (files : FileSystem) :
    Origin → List Offer
  | .explicit => (registered family calls supply []).map (⟨·, .origin .explicit⟩)
  | .overriding => (calls.filterMap declared?).map (⟨·, .origin .overriding⟩)
  | .discovered => Discovery.offersOfAll files (calls.filterMap source?)

/-- What calls offer, one origin after the other. -/
def offers (family : ProviderFamily σ) (calls : List Call) (supply : σ) (files : FileSystem) :
    List Offer :=
  offersBy family calls supply files .explicit ++ offersBy family calls supply files .overriding ++
    offersBy family calls supply files .discovered

end Call

namespace Assembly

/-- An assembly without modules. -/
def fresh (sink : Sink) (reportDeprecated : Bool) : Assembly :=
  { empty with sink, reportDeprecated }

variable {family : ProviderFamily σ} {calls : List Call} {supply : σ} {files : FileSystem}
  {sink : Sink} {reportDeprecated : Bool}

/-- The assembly that calls come to, from one without modules. -/
def called (family : ProviderFamily σ) (calls : List Call) (supply : σ) (sink : Sink)
    (reportDeprecated : Bool) : Assembly :=
  (performAll family calls (fresh sink reportDeprecated) supply).value.1

theorem called_eq :
    called family calls supply sink reportDeprecated =
      (fresh sink reportDeprecated).gathering
        (registerAll family calls ⟨[], []⟩ supply).value.1 calls := by
  rw [called, performAll_eq]
  rfl

theorem collected_called :
    ((called family calls supply sink reportDeprecated).collected files).value =
      match (Discovery.runAll files (calls.filterMap Call.source?)).value with
      | .error fault => .error (.discovery fault)
      | .ok found => .ok (collect (Call.registered family calls supply [])
          (calls.filterMap Call.declared?) found) := by
  have sources : (called family calls supply sink reportDeprecated).leaves =
      Discovery.leavesOfAll (calls.filterMap Call.source?) := by
    rw [called_eq, leaves, source?, gathering]
    simp only [fresh, empty, Collector.empty, List.nil_append]
    cases calls.filterMap Call.source? with
    | nil => rfl
    | cons source rest =>
        simp only [List.isEmpty_cons, Bool.false_eq_true, if_false, Option.toList_some,
          Discovery.leavesOfAll, Discovery.leaves, List.append_nil]
  rw [value_collected, sources, ← Discovery.runAll_eq_runAll_leavesOfAll, called_eq, gathering]
  cases (Discovery.runAll files (calls.filterMap Call.source?)).value with
  | error fault => rfl
  | ok found =>
      simp only [contributions_registerAll, fresh, empty, Collector.empty, List.nil_append]

theorem collect_eq_labelled {found : List Contribution}
    (answer : (Discovery.runAll files (calls.filterMap Call.source?)).value = .ok found) :
    collect (Call.registered family calls supply []) (calls.filterMap Call.declared?) found =
      (Call.offers family calls supply files).map Offer.labelled := by
  have stamped : ∀ (place : Origin) (contributions : List Contribution),
      contributions.map (fun contribution => contribution.orProvider place.label) =
        (contributions.map (⟨·, .origin place⟩)).map Offer.labelled := by
    intro place contributions
    rw [List.map_map]
    exact List.map_congr_left fun each _ => each.orProvider_label (.origin place)
  rw [collect, Call.offers, List.map_append, List.map_append]
  dsimp only
  rw [stamped, stamped, Discovery.map_orProvider_of_runAll answer]
  rfl

/-- Whatever is collected is what calls offer, with providers settled. -/
theorem eq_labelled_of_collected {contributions : List Contribution}
    (collected : ((called family calls supply sink reportDeprecated).collected files).value =
      .ok contributions) :
    contributions = (Call.offers family calls supply files).map Offer.labelled := by
  rw [collected_called] at collected
  cases answer : (Discovery.runAll files (calls.filterMap Call.source?)).value with
  | error fault =>
      rw [answer] at collected
      cases collected
  | ok found =>
      rw [answer] at collected
      cases collected
      exact collect_eq_labelled answer

/-- What an assembly tells a sink that keeps all events. -/
def events (assembly : Assembly) (files : FileSystem) : List Event :=
  ((assembly.toSink .recording).resolved files).events

/-- The providers that an assembly names, in its outcome or in events. -/
def providers (assembly : Assembly) (files : FileSystem) : List String :=
  providersOf (assembly.resolved files).value ++
    (assembly.events files).flatMap Event.providers

theorem events_of_error {assembly : Assembly} {fault : Fault}
    (failed : (assembly.collected files).value = .error fault) : assembly.events files = [] := by
  have same : (assembly.toSink .recording).collected files = assembly.collected files := rfl
  rw [events, resolved, Journaled.events_bind, same, failed, events_collected]
  rfl

/-- An assembly names no provider but those of what it collects. -/
theorem providers_subset {assembly : Assembly} {contributions : List Contribution}
    (collected : (assembly.collected files).value = .ok contributions) :
    assembly.providers files ⊆ contributions.map Contribution.providerName := by
  have retains := List.map_subset Contribution.providerName (retained_sublist contributions).subset
  have told := events_resolved_recording assembly files collected
  rw [providers, events, told, value_resolved, collected, List.append_subset]
  refine ⟨List.Subset.trans (providersOf_resolve contributions) retains, ?_⟩
  refine List.Subset.trans (fun provider named => ?_) (providers_events_resolve contributions)
  obtain ⟨event, member, named⟩ := List.mem_flatMap.mp named
  exact List.mem_flatMap.mpr ⟨event, List.mem_of_mem_filter member, named⟩

/-- Without contributions there is no provider to name. -/
theorem providers_of_error {assembly : Assembly} {fault : Fault}
    (failed : (assembly.collected files).value = .error fault) : assembly.providers files = [] := by
  rw [providers, events_of_error failed, value_resolved, failed]
  rw [value_collected] at failed
  cases answer : (Discovery.runAll files assembly.leaves).value with
  | error undiscovered =>
      rw [answer] at failed
      cases failed
      rfl
  | ok found =>
      rw [answer] at failed
      cases failed

end Assembly

/-- What comes of calls on an assembly without modules. -/
structure OrderedByOrigin (family : ProviderFamily σ) (calls : List Call) (supply : σ)
    (sink : Sink) (reportDeprecated : Bool) (files : FileSystem) (assembly : Assembly) : Prop where
  /-- Other calls that are the same for each origin leave the same assembly, which resolves to
  the same, and the same log. -/
  interleaved : ∀ others : List Call,
    (∀ origin, others.filter (fun call => call.origin = origin) =
      calls.filter fun call => call.origin = origin) →
    (do
      let (other, _) ← Assembly.performAll family others (.fresh sink reportDeprecated) supply
      other.resolved files) =
    (do
      let (same, _) ← Assembly.performAll family calls (.fresh sink reportDeprecated) supply
      same.resolved files)
  /-- If all sources answer, everything that calls add is collected by origins, and within an
  origin in the order of the calls. -/
  collected : ∀ outputs,
    List.Forall₂ (Discovery.Finds files) (calls.filterMap Call.source?) outputs →
    (assembly.collected files).value =
      .ok (collect (Call.registered family calls supply []) (calls.filterMap Call.declared?)
        outputs.flatten)
  /-- In a family that keeps its keys, what a provider expands to is what the recursion gives. -/
  expanded : ∀ key, family.Keyed key → ∀ name ∈ family.keys, ∀ supply keys,
    ∃ gained left after, Expansion.Expands family [name] (supply, keys) gained (left, after) ∧
      (Expansion.add family name supply ⟨[], keys⟩).value = (⟨gained.map Prod.snd, after⟩, left)
  /-- A target that is among the overrides already is not added to them again. -/
  declared : ∀ (contribution : Contribution) (target : Identity),
    (contribution.overrides.insert target).elements =
      if target.key ∈ contribution.overrides.elements.map Identity.key then
        contribution.overrides.elements
      else contribution.overrides.elements ++ [target]
  /-- Every contribution has the provider that it was given or that its first stamp names. -/
  labelled : ∀ contributions, (assembly.collected files).value = .ok contributions →
    contributions = (Call.offers family calls supply files).map Offer.labelled
  /-- The first contribution to an identity is retained: an explicit one, or else an overriding
  one, or else a discovered one. -/
  retained : ∀ contributions, (assembly.collected files).value = .ok contributions → ∀ wanted,
    let first (origin : Origin) := (Call.offersBy family calls supply files origin).find?
      fun offer => offer.contribution.key = wanted
    (retained contributions).find? (fun contribution => contribution.key = wanted) =
      (((first .explicit).or (first .overriding)).or (first .discovered)).map Offer.labelled
  /-- No other provider is named in the outcome or in an event. -/
  named : ∀ provider ∈ assembly.providers files,
    ∃ offer ∈ Call.offers family calls supply files, offer.provider = provider
  /-- The name for an unknown provider shows only if it was given to a contribution or is the
  label of a registration. -/
  unknown : Descriptor.unknownProvider ∈ assembly.providers files →
    ∃ offer ∈ Call.offers family calls supply files,
      offer.contribution.provider = some Descriptor.unknownProvider ∨
        offer.stamp = .registration Descriptor.unknownProvider
  /-- A refusal is told in the words of the fault that is the outcome. -/
  refused : ∀ message, .validationFailed message ∈ assembly.events files →
    ∃ fault, (assembly.resolved files).value = .error fault ∧ fault.message = message

/-- Calls on an assembly without modules come to what the calls of each origin come to, one
origin after the other, and every contribution has a provider from then on. -/
theorem called_orderedByOrigin (family : ProviderFamily σ) (calls : List Call) (supply : σ)
    (sink : Sink) (reportDeprecated : Bool) (files : FileSystem) :
    OrderedByOrigin family calls supply sink reportDeprecated files
      (Assembly.called family calls supply sink reportDeprecated) := by
  have named : ∀ provider ∈ (Assembly.called family calls supply sink reportDeprecated).providers
      files, ∃ offer ∈ Call.offers family calls supply files, offer.provider = provider := by
    intro provider member
    cases outcome : ((Assembly.called family calls supply sink reportDeprecated).collected
        files).value with
    | error fault =>
        rw [Assembly.providers_of_error outcome] at member
        exact (List.not_mem_nil member).elim
    | ok contributions =>
        have listed := Assembly.providers_subset outcome member
        rw [Assembly.eq_labelled_of_collected outcome, List.map_map] at listed
        exact List.mem_map.mp listed
  constructor
  case interleaved =>
    intro others same
    rw [Assembly.performAll_of_filter_eq same]
  case collected =>
    intro outputs finds
    rw [Assembly.collected_called, Discovery.runAll_of_finds finds]
  case expanded =>
    intro key keyed name member supply keys
    exact Expansion.expands_add keyed member supply ⟨[], keys⟩
  case declared =>
    intro contribution target
    rw [OrderedSet.insert]
    split <;> rfl
  case labelled => exact fun contributions outcome => Assembly.eq_labelled_of_collected outcome
  case retained =>
    intro contributions outcome wanted first
    rw [Assembly.eq_labelled_of_collected outcome, retained, find?_firsts, List.find?_map,
      Call.offers, List.find?_append, List.find?_append]
    rfl
  case named => exact named
  case unknown =>
    intro member
    obtain ⟨offer, offered, same⟩ := named _ member
    refine ⟨offer, offered, ?_⟩
    rw [Offer.provider] at same
    cases given : offer.contribution.provider with
    | some name =>
        rw [given] at same
        exact .inl (congrArg some same)
    | none =>
        rw [given] at same
        exact .inr (Stamp.label_eq_unknownProvider same)
  case refused =>
    intro message told
    cases outcome : ((Assembly.called family calls supply sink reportDeprecated).collected
        files).value with
    | error fault =>
        rw [Assembly.events_of_error outcome] at told
        exact (List.not_mem_nil told).elim
    | ok contributions =>
        rw [Assembly.events, Assembly.events_resolved_recording _ files outcome] at told
        rw [Assembly.value_resolved, outcome]
        exact exists_fault_of_validationFailed (List.mem_of_mem_filter told)

/-- A discovered contribution comes last, although its source is named first. -/
example :
    let calls : List Call := [.discover (.fixed (.ok [.plain "base" []])),
      .override (.named "base") (.plain "upper" []), .contribute (.plain "base" [])]
    let assembly := Assembly.called OrderedMap.empty calls () .silent true
    (assembly.collected default).value.map (List.map fun contribution =>
      (contribution.moduleName, contribution.provider)) =
        .ok [("base", some "explicit"), ("upper", some "override"), ("base", some "auto-load")] :=
  rfl

end Overlay
