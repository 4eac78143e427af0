import Overlay.Proofs.Assembly

/-!
# The trace of a resolution

The events of a resolution can be read off the contributions and the outcome.  First every
contribution is told to be accepted or skipped, in the order in which they are offered, then
every override that a retained module declares is told to be applied or ignored, and a
refusal comes last.  `Trace` writes these three parts down without rosters and graphs.
-/

namespace Overlay

/-- The provider of a contribution, also if it names none. -/
def Contribution.providerName (contribution : Contribution) : String :=
  contribution.provider.getD Descriptor.unknownProvider

namespace Trace

/-- What is told of a contribution offered after others. -/
def admission (earlier : List Contribution) (offered : Contribution) : List Event :=
  match earlier.find? fun other => other.key = offered.key with
  | some first =>
      [.skippedDuplicate offered.moduleName offered.providerName first.providerName]
  | none =>
      .accepted offered.moduleName offered.providerName ::
        if offered.deprecated then [.deprecated offered.moduleName offered.description] else []

/-- What is told of contributions offered in order after others. -/
def admissions (earlier : List Contribution) : List Contribution → List Event
  | [] => []
  | offered :: later => admission earlier offered ++ admissions (earlier ++ [offered]) later

/-- What is told of one override that a retained module declares. -/
def declaration (modules : List Contribution) (module : Contribution) (target : Identity) :
    Event :=
  match modules.find? fun other => other.key = target.key with
  | some found => .overrideApplied module.moduleName module.providerName found.moduleName
  | none => .ignoredOverride module.moduleName target.defaultName

/-- What is told of the overrides that retained modules declare. -/
def declarations (modules : List Contribution) : List Event :=
  modules.flatMap fun module => module.overrides.elements.map (declaration modules module)

/-- What is told of the outcome: only a refusal is. -/
def verdict : Except Fault (List EffectiveModule) → List Event
  | .error fault => [.validationFailed fault.message]
  | .ok _ => []

end Trace

open Trace

/-! ## One part after the other -/

namespace Roster

/-- A roster finds the first contribution to an identity. -/
theorem find?_ofList (contributions : List Contribution) (wanted : Identity.Key) :
    (OrderedSet.ofList (contributions.map Descriptor.ofContribution) : Roster).find? wanted =
      (contributions.find? fun other => other.key = wanted).map Descriptor.ofContribution := by
  rw [OrderedSet.find?_ofList, List.find?_map]
  rfl

theorem events_offer (earlier : List Contribution) (offered : Contribution) :
    (offer (.ofList (earlier.map Descriptor.ofContribution)) offered).events =
      admission earlier offered := by
  have key : (Descriptor.ofContribution offered).key = offered.key := rfl
  simp only [offer, find?_ofList, key, admission]
  cases earlier.find? fun other => other.key = offered.key with
  | some first => rfl
  | none =>
      simp only [Option.map_none, Journaled.events_bind, Journaled.events_emit,
        Journaled.events_emitIf, Journaled.events_pure, List.append_nil, List.singleton_append]
      rfl

theorem events_offerAll (earlier offered : List Contribution) :
    (offerAll (.ofList (earlier.map Descriptor.ofContribution)) offered).events =
      admissions earlier offered := by
  induction offered generalizing earlier with
  | nil => rfl
  | cons contribution rest ih =>
      have extended : (OrderedSet.ofList (earlier.map Descriptor.ofContribution) : Roster).insert
          (Descriptor.ofContribution contribution) =
            .ofList ((earlier ++ [contribution]).map Descriptor.ofContribution) := by
        rw [List.map_append, OrderedSet.ofList_append]
        rfl
      rw [offerAll, Journaled.events_bind, events_offer, value_offer, extended, ih, admissions]

theorem events_ofContributions (contributions : List Contribution) :
    (ofContributions contributions).events = admissions [] contributions := by
  rw [ofContributions, Journaled.events_bind, ← events_offerAll]
  exact List.append_nil _

end Roster

namespace OverrideGraph

theorem overrideEvent_eq {modules : List Contribution} {roster : Roster}
    (listed : roster.elements = modules.map Descriptor.ofContribution) (module : Contribution)
    (target : Identity) :
    overrideEvent roster (Descriptor.ofContribution module) target =
      declaration modules module target := by
  have found : roster.find? target.key =
      (modules.find? fun other => other.key = target.key).map Descriptor.ofContribution := by
    rw [OrderedSet.find?, listed, List.find?_map]
    rfl
  rw [overrideEvent, found, declaration]
  cases modules.find? fun other => other.key = target.key with
  | some found => rfl
  | none => rfl

theorem events_build {modules : List Contribution} {roster : Roster}
    (listed : roster.elements = modules.map Descriptor.ofContribution) :
    (build roster).events = declarations modules := by
  simp only [build, Journaled.events_bind, Journaled.events_forIn, Journaled.events_log,
    Journaled.events_pure, Journaled.events_emit, List.append_nil, listed, List.flatMap_map,
    overrideEvent_eq listed, declarations]
  apply List.flatMap_congr
  intro module _
  exact List.map_eq_flatMap.symm

theorem events_checkSingleOverride (graph : OverrideGraph) :
    graph.checkSingleOverride.events = [] := by
  rw [checkSingleOverride]
  cases graph.doubleOverride? with
  | some fault => rfl
  | none => rfl

theorem events_loadOrder (graph : OverrideGraph) : graph.loadOrder.events = [] := by
  rw [loadOrder]
  cases graph.orderOrCycle with
  | ok order => rfl
  | error fault => rfl

end OverrideGraph

/-- The trace is told in three parts. -/
theorem events_resolve (contributions : List Contribution) :
    (resolve contributions).events =
      admissions [] contributions ++ declarations (retained contributions) ++
        verdict (resolve contributions).value := by
  have listed := Roster.elements_ofContributions contributions
  simp only [resolve, Journaled.events_bind, Journaled.value_bind,
    Roster.events_ofContributions, OverrideGraph.events_build listed,
    OverrideGraph.events_checkSingleOverride, List.append_assoc, List.nil_append]
  generalize (OverrideGraph.build (Roster.ofContributions contributions).value).value = graph
  cases graph.checkSingleOverride.value with
  | error fault => rfl
  | ok accepted =>
      simp only [Journaled.events_bind, Journaled.value_bind, OverrideGraph.events_loadOrder]
      cases graph.loadOrder.value with
      | error fault => rfl
      | ok order => rfl

/-! ## What the trace depends on -/

namespace Trace

theorem admissions_append (earlier first second : List Contribution) :
    admissions earlier (first ++ second) =
      admissions earlier first ++ admissions (earlier ++ first) second := by
  induction first generalizing earlier with
  | nil => rw [List.nil_append, List.append_nil]; rfl
  | cons offered rest ih =>
      rw [List.cons_append, admissions, admissions, ih, List.append_assoc, List.append_assoc,
        List.singleton_append]

/-- Of what was offered before, only the first contribution to each identity counts. -/
theorem admissions_of_find? {first second : List Contribution}
    (same : ∀ wanted, first.find? (fun other => other.key = wanted) =
      second.find? fun other => other.key = wanted) (offered : List Contribution) :
    admissions first offered = admissions second offered := by
  induction offered generalizing first second with
  | nil => rfl
  | cons contribution rest ih =>
      have extended : ∀ wanted,
          (first ++ [contribution]).find? (fun other => other.key = wanted) =
            (second ++ [contribution]).find? fun other => other.key = wanted := by
        intro wanted
        rw [List.find?_append, List.find?_append, same]
      rw [admissions, admissions, admission, admission, same, ih extended]

end Trace

/-! ## Counting events -/

/-- Whether the event tells of a contribution that is retained. -/
def Event.isAcceptance : Event → Bool
  | .accepted .. => true
  | _ => false

/-- Whether the event tells of an override that takes effect. -/
def Event.isApplication : Event → Bool
  | .overrideApplied .. => true
  | _ => false

namespace Trace

/-- A contribution is either accepted or skipped. -/
theorem countP_admissions (earlier offered : List Contribution) :
    (admissions earlier offered).countP Event.isAcceptance +
      (admissions earlier offered).countP Event.isDuplicateWarning = offered.length := by
  induction offered generalizing earlier with
  | nil => rfl
  | cons contribution rest ih =>
      have one : (admission earlier contribution).countP Event.isAcceptance +
          (admission earlier contribution).countP Event.isDuplicateWarning = 1 := by
        rw [admission]
        cases earlier.find? fun other => other.key = contribution.key with
        | some first => rfl
        | none => cases contribution.deprecated <;> rfl
      have others := ih (earlier ++ [contribution])
      rw [admissions, List.countP_append, List.countP_append, List.length_cons]
      omega

/-- Among the contributions offered, those accepted are retained. -/
theorem length_retained_append (earlier offered : List Contribution) :
    (retained (earlier ++ offered)).length =
      (retained earlier).length + (admissions earlier offered).countP Event.isAcceptance := by
  induction offered generalizing earlier with
  | nil => rw [List.append_nil]; rfl
  | cons contribution rest ih =>
      have one : (retained (earlier ++ [contribution])).length =
          (retained earlier).length +
            (admission earlier contribution).countP Event.isAcceptance := by
        rw [retained, firsts_concat, admission]
        cases found : earlier.find? fun other => other.key = contribution.key with
        | some first =>
            have known : contribution.key ∈ earlier.map Contribution.key := by
              by_contra unknown
              rw [find?_key_eq_none_iff.mpr unknown] at found
              cases found
            rw [if_pos known]
            rfl
        | none =>
            rw [if_neg (find?_key_eq_none_iff.mp found), List.length_append]
            cases contribution.deprecated <;> rfl
      rw [List.append_cons, ih, one, admissions, List.countP_append, Nat.add_assoc]

/-- Every base of a retained module is told to be overridden. -/
theorem countP_declarations (modules : List Contribution) :
    (declarations modules).countP Event.isApplication =
      (modules.flatMap (Declared.bases modules)).length := by
  rw [declarations, List.countP_flatMap, List.length_flatMap]
  congr 2
  funext module
  rw [Function.comp, List.countP_map, Declared.bases, List.length_filterMap_eq_countP]
  congr 1
  funext target
  rw [Function.comp, declaration]
  cases modules.find? fun candidate => candidate.key = target.key with
  | some found => rfl
  | none => rfl

/-- No override is told of before the retained modules are known. -/
theorem countP_isApplication_admissions (earlier offered : List Contribution) :
    (admissions earlier offered).countP Event.isApplication = 0 := by
  induction offered generalizing earlier with
  | nil => rfl
  | cons contribution rest ih =>
      have none : (admission earlier contribution).countP Event.isApplication = 0 := by
        rw [admission]
        cases earlier.find? fun other => other.key = contribution.key with
        | some first => rfl
        | none => cases contribution.deprecated <;> rfl
      rw [admissions, List.countP_append, none, ih]

/-- Declared overrides are told of as applied or ignored, and as nothing else. -/
theorem countP_declarations_eq_zero {counted : Event → Bool}
    (applied : ∀ module provider target,
      counted (.overrideApplied module provider target) = false)
    (ignored : ∀ module target, counted (.ignoredOverride module target) = false)
    (modules : List Contribution) : (declarations modules).countP counted = 0 := by
  rw [List.countP_eq_zero]
  intro event told
  simp only [declarations, List.mem_flatMap, List.mem_map] at told
  obtain ⟨module, _, target, _, rfl⟩ := told
  rw [declaration]
  cases modules.find? fun other => other.key = target.key with
  | some found => simp only [applied, Bool.false_eq_true, not_false_iff]
  | none => simp only [ignored, Bool.false_eq_true, not_false_iff]

theorem countP_verdict_eq_zero {counted : Event → Bool}
    (failed : ∀ message, counted (.validationFailed message) = false)
    (outcome : Except Fault (List EffectiveModule)) : (verdict outcome).countP counted = 0 := by
  cases outcome with
  | error fault => simp [verdict, failed]
  | ok effective => rfl

end Trace

section Counts

variable (contributions : List Contribution)

/-- Offering contributions is told of first, and only then. -/
theorem countP_events_eq_admissions {counted : Event → Bool}
    (applied : ∀ module provider target,
      counted (.overrideApplied module provider target) = false)
    (ignored : ∀ module target, counted (.ignoredOverride module target) = false)
    (failed : ∀ message, counted (.validationFailed message) = false) :
    (resolve contributions).events.countP counted =
      (admissions [] contributions).countP counted := by
  rw [events_resolve, List.countP_append, List.countP_append,
    countP_declarations_eq_zero applied ignored, countP_verdict_eq_zero failed]
  rfl

theorem countP_isAcceptance_events :
    (resolve contributions).events.countP Event.isAcceptance =
      (admissions [] contributions).countP Event.isAcceptance :=
  countP_events_eq_admissions contributions (fun _ _ _ => rfl) (fun _ _ => rfl) fun _ => rfl

theorem countP_isDuplicateWarning_events :
    (resolve contributions).events.countP Event.isDuplicateWarning =
      (admissions [] contributions).countP Event.isDuplicateWarning :=
  countP_events_eq_admissions contributions (fun _ _ _ => rfl) (fun _ _ => rfl) fun _ => rfl

/-- As many overrides are told to be applied as there are bases of retained modules. -/
theorem countP_isApplication_events :
    (resolve contributions).events.countP Event.isApplication =
      ((retained contributions).flatMap (Declared.bases (retained contributions))).length := by
  rw [events_resolve, List.countP_append, List.countP_append, countP_isApplication_admissions,
    countP_declarations, countP_verdict_eq_zero fun _ => rfl, Nat.zero_add]
  rfl

end Counts

/-! ## The trace as a whole -/

/-- What the events of resolving contributions have to satisfy. -/
structure ExactTrace (contributions : List Contribution)
    (run : Journaled (Except Fault (List EffectiveModule))) : Prop where
  told : run.events =
    admissions [] contributions ++ declarations (retained contributions) ++ verdict run.value
  offered : run.events.countP Event.isAcceptance + run.events.countP Event.isDuplicateWarning =
    contributions.length
  edges : run.events.countP Event.isApplication = (resolutionGraph contributions).edgeCount
  /-- Every module accepted takes effect itself or is overridden once. -/
  balance : ∀ effective, run.value = .ok effective →
    effective.length + run.events.countP Event.isApplication =
      run.events.countP Event.isAcceptance

theorem exactTrace_resolve (contributions : List Contribution) :
    ExactTrace contributions (resolve contributions) := by
  constructor
  case told => exact events_resolve contributions
  case offered =>
    rw [countP_isAcceptance_events, countP_isDuplicateWarning_events]
    exact countP_admissions [] contributions
  case edges =>
    rw [countP_isApplication_events]
    exact (Declared.edgeCount_eq (Roster.elements_ofContributions contributions)).symm
  case balance =>
    intro effective resolved
    have folds := folds_of_resolved resolved
    have accepted : (retained contributions).length =
        (admissions [] contributions).countP Event.isAcceptance :=
      (length_retained_append [] contributions).trans (Nat.zero_add _)
    rw [countP_isApplication_events, countP_isAcceptance_events, ← accepted,
      ← folds.2.2.length_eq]
    exact Declared.length_outermost_add (retained_nodup contributions) folds.1

/-- The events of a resolution tell what becomes of every contribution and of every declared
override, and a refusal; counted, they balance with the effective modules.  An assembly that
leaves deprecation alerts out hands exactly the other events to its sink, and its outcome
is the same. -/
theorem resolve_trace_exact (contributions : List Contribution) :
    ExactTrace contributions (resolve contributions) ∧
      ∀ (assembly : Assembly) (files : FileSystem),
        (assembly.collected files).value = .ok contributions →
        assembly.reportDeprecated = false →
        let recorded := (assembly.toSink .recording).resolved files
        recorded.value = (resolve contributions).value ∧
          recorded.events =
            (resolve contributions).events.filter (fun event => !event.isDeprecation) ∧
          ∀ sink, (assembly.toSink sink).resolved files = sink.deliver recorded := by
  refine ⟨exactTrace_resolve contributions, ?_⟩
  intro assembly files collected unreported recorded
  refine ⟨?_, ?_, fun sink => assembly.resolved_toSink sink files⟩
  · have same : (assembly.toSink .recording).collected files = assembly.collected files := rfl
    rw [Assembly.value_resolved, same, collected]
  · rw [Assembly.events_resolved_recording assembly files collected, unreported]
    simp only [Bool.false_or]

end Overlay
