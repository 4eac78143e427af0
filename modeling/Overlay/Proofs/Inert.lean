import Overlay.Proofs.Trace

/-!
# What leaves nothing but an event

Once the graph is built, resolution does not look at what modules declare, so its outcome
depends on the declarations of loaded modules only.  Two things that a list of contributions
may hold are therefore inert: a contribution to a module that has been contributed before,
and a declared override of a module that is not loaded.  Either is told as one event, and
the outcome is the same as without it.
-/

namespace Overlay

/-- The contribution without what it declares. -/
def Contribution.stripped (contribution : Contribution) : Contribution :=
  { contribution with overrides := .empty }

/-- The module without what it declares. -/
def Descriptor.stripped (descriptor : Descriptor) : Descriptor :=
  { descriptor with overrides := .empty }

/-! ## A graph without its declarations -/

namespace OverrideGraph

/-- The graph without the declarations that its edges were read off. -/
def stripped (graph : OverrideGraph) : OverrideGraph :=
  { graph with nodes := graph.nodes.map Descriptor.stripped }

variable (graph : OverrideGraph)

@[simp] theorem size_stripped : graph.stripped.size = graph.size := List.length_map _

@[simp] theorem name_stripped (index : Nat) : graph.stripped.name index = graph.name index := by
  simp only [name, stripped, List.getElem?_map, Option.map_map]
  rfl

@[simp] theorem overrider_stripped (index : Nat) :
    graph.stripped.overrider index = graph.overrider index := by
  simp only [overrider, name_stripped]
  simp only [stripped, List.getElem?_map, Option.map_map]
  rfl

theorem doubleOverride?_stripped : graph.stripped.doubleOverride? = graph.doubleOverride? := by
  have each : graph.stripped.doubleOverrideAt? = graph.doubleOverrideAt? := by
    funext index
    have incoming : graph.stripped.incoming index = graph.incoming index := rfl
    simp only [doubleOverrideAt?, incoming, overrider_stripped]
    rw [funext graph.overrider_stripped]
  rw [doubleOverride?, doubleOverride?, each, size_stripped]

/-- A sweep follows the edges only. -/
theorem runSweep_stripped (sweep : Sweep) :
    graph.stripped.runSweep sweep = graph.runSweep sweep := by
  induction sweep using runSweep.induct graph with
  | case1 counts taken => rw [runSweep, runSweep]
  | case2 index rest counts taken ih =>
      rw [runSweep, runSweep]
      exact ih

theorem finishedSweep_stripped : graph.stripped.finishedSweep = graph.finishedSweep := by
  have initial : graph.stripped.initialSweep = graph.initialSweep := by
    simp only [initialSweep, size_stripped]
    rfl
  rw [finishedSweep, finishedSweep, initial, runSweep_stripped]

/-- So does the walk that looks for a circle. -/
theorem circleFrom_stripped (counts left walked : List Nat) (current : Nat) :
    graph.stripped.circleFrom counts left walked current =
      graph.circleFrom counts left walked current := by
  have incoming : graph.stripped.incoming = graph.incoming := rfl
  induction left, walked, current using circleFrom.induct graph counts with
  | case1 left walked current unvisited overrider found ih =>
      rw [circleFrom, circleFrom, dif_pos unvisited, dif_pos unvisited, incoming, found]
      exact ih
  | case2 left walked current unvisited stopped =>
      rw [circleFrom, circleFrom, dif_pos unvisited, dif_pos unvisited, incoming, stopped]
  | case3 left walked current again =>
      rw [circleFrom, circleFrom, dif_neg again, dif_neg again]

theorem cycleFault_stripped (counts : List Nat) :
    graph.stripped.cycleFault counts = graph.cycleFault counts := by
  have unresolved : graph.stripped.unresolved counts = graph.unresolved counts := by
    simp only [OverrideGraph.unresolved, size_stripped]
  simp only [cycleFault, unresolved, circleFrom_stripped, funext graph.name_stripped]

theorem orderOrCycle_stripped : graph.stripped.orderOrCycle = graph.orderOrCycle := by
  simp only [orderOrCycle, finishedSweep_stripped, size_stripped, cycleFault_stripped]

/-- Folding composes modules without looking at what they declare. -/
theorem fold_stripped (order : List Nat) : graph.stripped.fold order = graph.fold order := by
  have each : Folding.step graph.stripped = Folding.step graph := by
    funext folding index
    simp only [Folding.step, stripped, List.getElem?_map]
    cases graph.nodes[index]? with
    | none => rfl
    | some descriptor => rfl
  simp only [fold, each, size_stripped]

end OverrideGraph

/-- Graphs that differ in their declarations only have the same outcome. -/
theorem value_resolve_of_stripped {left right : List Contribution}
    (same : (resolutionGraph left).stripped = (resolutionGraph right).stripped) :
    (resolve left).value = (resolve right).value := by
  rw [value_resolve, value_resolve, ← (resolutionGraph left).doubleOverride?_stripped,
    ← (resolutionGraph right).doubleOverride?_stripped,
    ← (resolutionGraph left).orderOrCycle_stripped,
    ← (resolutionGraph right).orderOrCycle_stripped, same]
  simp only [← (resolutionGraph left).fold_stripped, ← (resolutionGraph right).fold_stripped, same]

/-! ## Declarations of loaded modules -/

/-- The contributions differ at most in declared overrides of modules that are not loaded. -/
structure SameLoaded (loaded : List Identity.Key) (left right : Contribution) : Prop where
  stripped : left.stripped = right.stripped
  declares : (left.overrides.elements.map Identity.key).filter (· ∈ loaded) =
    (right.overrides.elements.map Identity.key).filter (· ∈ loaded)

theorem SameLoaded.key {loaded : List Identity.Key} {left right : Contribution}
    (same : SameLoaded loaded left right) : left.key = right.key := by
  have keys := congrArg Contribution.key same.stripped
  exact keys

theorem SameLoaded.refl (loaded : List Identity.Key) (contribution : Contribution) :
    SameLoaded loaded contribution contribution := ⟨rfl, rfl⟩

namespace OverrideGraph

/-- Modules with the same loaded targets have the same successors, on rosters that agree on
what stands where. -/
theorem targets_of_sameLoaded {first second : Roster} {loaded : List Identity.Key}
    (keys : first.elements.map Descriptor.key = second.elements.map Descriptor.key)
    (within : ∀ wanted ∈ first.elements.map Descriptor.key, wanted ∈ loaded)
    {left right : Contribution} (same : SameLoaded loaded left right) :
    targets first (Descriptor.ofContribution left) =
      targets second (Descriptor.ofContribution right) := by
  have places : second.index? = first.index? := by
    funext wanted
    rw [OrderedSet.index?_eq_findIdx?, OrderedSet.index?_eq_findIdx?, keys]
  have loadedOnly : ∀ wanted : List Identity.Key,
      wanted.filterMap first.index? = (wanted.filter (· ∈ loaded)).filterMap first.index? := by
    intro wanted
    rw [List.filterMap_filter]
    apply List.filterMap_congr
    intro key _
    split
    · rfl
    · next unloaded =>
        refine first.index?_eq_none_iff.mpr fun known => unloaded ?_
        exact decide_eq_true (within key known)
  rw [targets_eq, targets_eq, places, loadedOnly, loadedOnly (List.map _ _)]
  exact congrArg _ same.declares

theorem stripped_resolutionGraph {lefts rights : List Contribution}
    (each : List.Forall₂ (SameLoaded (lefts.map Contribution.key)) lefts rights) :
    (resolutionGraph lefts).stripped = (resolutionGraph rights).stripped := by
  have kept : List.Forall₂ (SameLoaded (lefts.map Contribution.key)) (retained lefts)
      (retained rights) := forall₂_firsts (fun same => same.key) each
  have leftListed := Roster.elements_ofContributions lefts
  have rightListed := Roster.elements_ofContributions rights
  rw [resolutionGraph, resolutionGraph]
  generalize (Roster.ofContributions lefts).value = first at leftListed ⊢
  generalize (Roster.ofContributions rights).value = second at rightListed ⊢
  have keys : first.elements.map Descriptor.key = second.elements.map Descriptor.key := by
    rw [leftListed, rightListed, List.map_map, List.map_map]
    exact map_eq_of_forall₂ (kept.imp fun _ _ same => same.key)
  have within : ∀ wanted ∈ first.elements.map Descriptor.key,
      wanted ∈ lefts.map Contribution.key := by
    intro wanted known
    rw [leftListed, List.map_map] at known
    exact ((retained_sublist lefts).map Contribution.key).subset known
  have nodes : first.elements.map Descriptor.stripped =
      second.elements.map Descriptor.stripped := by
    rw [leftListed, rightListed, List.map_map, List.map_map]
    refine map_eq_of_forall₂ (kept.imp fun left right same => ?_)
    have described := congrArg Descriptor.ofContribution same.stripped
    exact described
  have rows : first.elements.map (targets first) = second.elements.map (targets second) := by
    rw [leftListed, rightListed, List.map_map, List.map_map]
    exact map_eq_of_forall₂ (kept.imp fun _ _ => targets_of_sameLoaded keys within)
  have sizes : first.size = second.size := by
    have counted := congrArg List.length keys
    rwa [List.length_map, List.length_map] at counted
  have sameEdges : edges first = edges second := by
    have sameRows : targetsAt first = targetsAt second := by
      funext source
      rw [targetsAt, targetsAt, ← List.getElem?_map, ← List.getElem?_map, rows]
    rw [edges_eq, edges_eq, sameRows, sizes]
  simp only [stripped, ofRoster, nodes, sameEdges, sizes]

end OverrideGraph

/-- Declared overrides of modules that are not loaded do not influence the outcome. -/
theorem value_resolve_of_sameLoaded {lefts rights : List Contribution}
    (each : List.Forall₂ (SameLoaded (lefts.map Contribution.key)) lefts rights) :
    (resolve lefts).value = (resolve rights).value :=
  value_resolve_of_stripped (OverrideGraph.stripped_resolutionGraph each)

/-! ## Duplicates -/

open Trace

/-- A contribution to an identity contributed before does not change which one is found. -/
theorem find?_append_duplicate {earlier : List Contribution} {duplicate : Contribution}
    (known : duplicate.key ∈ earlier.map Contribution.key) (wanted : Identity.Key) :
    (earlier ++ [duplicate]).find? (fun other => other.key = wanted) =
      earlier.find? fun other => other.key = wanted := by
  rw [List.find?_append]
  cases found : earlier.find? fun other => other.key = wanted with
  | some first => rfl
  | none =>
      have unknown := find?_key_eq_none_iff.mp found
      have different : duplicate.key ≠ wanted := fun same => unknown (same ▸ known)
      simp [different]

/-- A later contribution to an identity contributed before changes nothing about the outcome,
and of the events only that it is told to be skipped. -/
theorem resolve_of_duplicate {earlier : List Contribution} {duplicate : Contribution}
    (known : duplicate.key ∈ earlier.map Contribution.key) (later : List Contribution) :
    (resolve (earlier ++ duplicate :: later)).value = (resolve (earlier ++ later)).value ∧
      ∃ first rest,
        earlier.find? (fun other => other.key = duplicate.key) = some first ∧
        (resolve (earlier ++ later)).events =
          admissions [] earlier ++ (admissions earlier later ++ rest) ∧
        (resolve (earlier ++ duplicate :: later)).events =
          admissions [] earlier ++
            .skippedDuplicate duplicate.moduleName duplicate.providerName first.providerName ::
              (admissions earlier later ++ rest) := by
  have sameRetained : retained (earlier ++ duplicate :: later) = retained (earlier ++ later) :=
    firsts_append_cons_of_mem known later
  have sameValue : (resolve (earlier ++ duplicate :: later)).value =
      (resolve (earlier ++ later)).value := value_resolve_of_retained sameRetained
  refine ⟨sameValue, ?_⟩
  cases found : earlier.find? fun other => other.key = duplicate.key with
  | none => exact (find?_key_eq_none_iff.mp found known).elim
  | some first =>
      refine ⟨first, declarations (retained (earlier ++ later)) ++
        verdict (resolve (earlier ++ later)).value, rfl, ?_, ?_⟩
      · rw [events_resolve, admissions_append, List.nil_append]
        simp only [List.append_assoc]
      · rw [events_resolve, admissions_append, admissions, List.nil_append, admission, found,
          admissions_of_find? (find?_append_duplicate known), sameRetained, sameValue]
        simp only [List.append_assoc, List.cons_append, List.nil_append]

/-- A duplicate that would have closed a cycle and made a double override. -/
theorem resolve_of_conflicting_duplicate :
    let earlier : List Contribution := [.plain "base" [], .plain "upper" ["base"]]
    let duplicate := Contribution.plain "base" ["upper", "last"]
    let later : List Contribution := [.plain "last" ["upper"]]
    duplicate.key ∈ earlier.map Contribution.key ∧
      (resolve (earlier ++ duplicate :: later)).value = (resolve (earlier ++ later)).value ∧
      ∃ first rest,
        earlier.find? (fun other => other.key = duplicate.key) = some first ∧
        (resolve (earlier ++ later)).events =
          admissions [] earlier ++ (admissions earlier later ++ rest) ∧
        (resolve (earlier ++ duplicate :: later)).events =
          admissions [] earlier ++
            .skippedDuplicate duplicate.moduleName duplicate.providerName first.providerName ::
              (admissions earlier later ++ rest) := by
  intro earlier duplicate later
  have known : duplicate.key ∈ earlier.map Contribution.key := by decide
  exact ⟨known, resolve_of_duplicate known later⟩

/-! ## Overrides of modules that are not loaded -/

/-- The set with a new element put in at a place. -/
def OrderedSet.insertAt {κ α : Type} {key : α → κ} (set : OrderedSet key) (place : Nat)
    (element : α) (fresh : key element ∉ set.elements.map key) : OrderedSet key where
  elements := set.elements.take place ++ element :: set.elements.drop place
  distinct := by
    have moved : (set.elements.take place ++ element :: set.elements.drop place).Perm
        (element :: set.elements) := by
      refine List.perm_middle.trans (.cons element ?_)
      rw [List.take_append_drop]
    rw [(moved.map key).nodup_iff, List.map_cons, List.nodup_cons]
    exact ⟨fresh, set.distinct⟩

namespace Contribution

/-- The contribution with one more declared override, put in at a place. -/
def declaringAt (contribution : Contribution) (place : Nat) (target : Identity)
    (fresh : target.key ∉ contribution.overrides.elements.map Identity.key) : Contribution :=
  { contribution with overrides := contribution.overrides.insertAt place target fresh }

end Contribution

theorem find?_map_stripped (contributions : List Contribution) (wanted : Identity.Key) :
    (contributions.map Contribution.stripped).find? (fun other => other.key = wanted) =
      (contributions.find? fun other => other.key = wanted).map Contribution.stripped := by
  rw [List.find?_map]
  rfl

/-- Being offered is told of without a look at declarations. -/
theorem admissions_map_stripped (earlier offered : List Contribution) :
    admissions (earlier.map Contribution.stripped) (offered.map Contribution.stripped) =
      admissions earlier offered := by
  induction offered generalizing earlier with
  | nil => rfl
  | cons contribution rest ih =>
      have alone : admission (earlier.map Contribution.stripped) contribution.stripped =
          admission earlier contribution := by
        have key : contribution.stripped.key = contribution.key := rfl
        rw [admission, admission, key, find?_map_stripped]
        cases earlier.find? fun other => other.key = contribution.key with
        | some first => rfl
        | none => rfl
      have extended := ih (earlier ++ [contribution])
      rw [List.map_append] at extended
      rw [List.map_cons, admissions, admissions, alone, ← extended]
      rfl

/-- How a declared override is told depends on the names of the retained modules only. -/
theorem declaration_of_stripped {first second : List Contribution}
    (same : first.map Contribution.stripped = second.map Contribution.stripped) :
    declaration first = declaration second := by
  funext module target
  have found : (first.find? fun other => other.key = target.key).map Contribution.stripped =
      (second.find? fun other => other.key = target.key).map Contribution.stripped := by
    rw [← find?_map_stripped, same, find?_map_stripped]
  rw [declaration, declaration]
  cases ofFirst : first.find? fun other => other.key = target.key with
  | none =>
      rw [ofFirst, Option.map_none, eq_comm, Option.map_eq_none_iff] at found
      rw [found]
  | some target =>
      rw [ofFirst, Option.map_some, eq_comm, Option.map_eq_some_iff] at found
      obtain ⟨other, ofSecond, sameTarget⟩ := found
      have sameName := congrArg Contribution.moduleName sameTarget
      rw [ofSecond]
      exact congrArg (Event.overrideApplied _ _) sameName.symm

section AbsentTarget

variable {module : Contribution} {target : Identity}
  (fresh : target.key ∉ module.overrides.elements.map Identity.key) (place : Nat)

theorem map_stripped_declaringAt (earlier later : List Contribution) :
    (earlier ++ module.declaringAt place target fresh :: later).map Contribution.stripped =
      (earlier ++ module :: later).map Contribution.stripped := by
  rw [List.map_append, List.map_append]
  rfl

theorem admissions_declaringAt (earlier later : List Contribution) :
    admissions [] (earlier ++ module.declaringAt place target fresh :: later) =
      admissions [] (earlier ++ module :: later) := by
  have stripped := admissions_map_stripped []
    (earlier ++ module.declaringAt place target fresh :: later)
  rw [map_stripped_declaringAt fresh place earlier later] at stripped
  exact stripped.symm.trans (admissions_map_stripped [] _)

theorem sameLoaded_declaringAt {loaded : List Identity.Key} (absent : target.key ∉ loaded) :
    SameLoaded loaded module (module.declaringAt place target fresh) := by
  constructor
  case stripped => rfl
  case declares =>
    simp only [Contribution.declaringAt, OrderedSet.insertAt, List.map_append, List.map_cons,
      List.filter_append, List.filter_cons, absent, decide_false, Bool.false_eq_true, if_false]
    rw [← List.filter_append, ← List.map_append, List.take_append_drop]

variable {earlier later : List Contribution}

/-- A contribution that is discarded declares in vain. -/
theorem retained_declaringAt (known : module.key ∈ earlier.map Contribution.key) :
    retained (earlier ++ module.declaringAt place target fresh :: later) =
      retained (earlier ++ module :: later) := by
  have alsoKnown : (module.declaringAt place target fresh).key ∈
      earlier.map Contribution.key := known
  exact (firsts_append_cons_of_mem alsoKnown later).trans
    (firsts_append_cons_of_mem known later).symm

variable (absent : ∀ other ∈ earlier ++ module :: later, other.key ≠ target.key)
include absent

theorem value_resolve_declaringAt :
    (resolve (earlier ++ module.declaringAt place target fresh :: later)).value =
      (resolve (earlier ++ module :: later)).value := by
  have unloaded : target.key ∉ (earlier ++ module :: later).map Contribution.key := by
    intro loaded
    obtain ⟨other, member, same⟩ := List.mem_map.mp loaded
    exact absent other member same
  refine (value_resolve_of_sameLoaded (List.rel_append ?_ (.cons ?_ ?_))).symm
  · exact List.forall₂_same.mpr fun _ _ => .refl _ _
  · exact sameLoaded_declaringAt fresh place unloaded
  · exact List.forall₂_same.mpr fun _ _ => .refl _ _

/-- A module on the list tells of one override more. -/
theorem declarations_declaringAt :
    ∃ before after, declarations (earlier ++ module :: later) = before ++ after ∧
      declarations (earlier ++ module.declaringAt place target fresh :: later) =
        before ++ .ignoredOverride module.moduleName target.defaultName :: after := by
  let told := declaration (earlier ++ module :: later)
  have same : declaration (earlier ++ module.declaringAt place target fresh :: later) = told :=
    declaration_of_stripped (map_stripped_declaringAt fresh place earlier later)
  have ignored : told module target =
      .ignoredOverride module.moduleName target.defaultName := by
    have missing : (earlier ++ module :: later).find? (fun other => other.key = target.key) =
        none := by
      rw [List.find?_eq_none]
      exact fun other member found => absent other member (of_decide_eq_true found)
    simp only [told, declaration, missing]
  have split : module.overrides.elements.map (told module) =
      (module.overrides.elements.take place).map (told module) ++
        (module.overrides.elements.drop place).map (told module) := by
    rw [← List.map_append, List.take_append_drop]
  refine ⟨(earlier.flatMap fun other => other.overrides.elements.map (told other)) ++
      (module.overrides.elements.take place).map (told module),
    (module.overrides.elements.drop place).map (told module) ++
      later.flatMap fun other => other.overrides.elements.map (told other), ?_, ?_⟩
  · rw [declarations, List.flatMap_append, List.flatMap_cons, split]
    simp only [List.append_assoc, told]
  · have extended : (module.declaringAt place target fresh).overrides.elements.map
        (told (module.declaringAt place target fresh)) =
          (module.overrides.elements.take place).map (told module) ++
            .ignoredOverride module.moduleName target.defaultName ::
              (module.overrides.elements.drop place).map (told module) := by
      rw [← ignored, ← List.map_cons, ← List.map_append]
      rfl
    rw [declarations, same, List.flatMap_append, List.flatMap_cons, extended]
    simp only [List.append_assoc, List.cons_append]

/-- So does a contribution that is retained. -/
theorem declarations_retained_declaringAt (unknown : module.key ∉ earlier.map Contribution.key) :
    ∃ before after, declarations (retained (earlier ++ module :: later)) = before ++ after ∧
      declarations (retained (earlier ++ module.declaringAt place target fresh :: later)) =
        before ++ .ignoredOverride module.moduleName target.defaultName :: after := by
  have alsoUnknown : (module.declaringAt place target fresh).key ∉
      earlier.map Contribution.key := unknown
  have retainedAbsent : ∀ other ∈ retained (earlier ++ module :: later),
      other.key ≠ target.key := fun other member =>
    absent other ((retained_sublist _).subset member)
  rw [retained_append_cons unknown later] at retainedAbsent ⊢
  rw [retained_append_cons alsoUnknown later]
  exact declarations_declaringAt fresh place retainedAbsent

end AbsentTarget

/-- A further declared override of a module that is not loaded changes nothing about the
outcome, wherever it stands.  It is told to be ignored, unless the contribution that declares
it is discarded; no other event is added or changed. -/
theorem resolve_of_absent_target {earlier later : List Contribution} {module : Contribution}
    {target : Identity} (absent : ∀ other ∈ earlier ++ module :: later, other.key ≠ target.key)
    (fresh : target.key ∉ module.overrides.elements.map Identity.key) (place : Nat) :
    let contributions := earlier ++ module :: later
    let extended := earlier ++ module.declaringAt place target fresh :: later
    (resolve extended).value = (resolve contributions).value ∧
      (module.key ∈ earlier.map Contribution.key →
        (resolve extended).events = (resolve contributions).events) ∧
      (module.key ∉ earlier.map Contribution.key → ∃ before after,
        (resolve contributions).events = before ++ after ∧
        (resolve extended).events =
          before ++ .ignoredOverride module.moduleName target.defaultName :: after) := by
  intro contributions extended
  have sameValue := value_resolve_declaringAt fresh place absent
  have sameAdmissions := admissions_declaringAt fresh place earlier later
  refine ⟨sameValue, ?_, ?_⟩
  · intro known
    rw [events_resolve, events_resolve, sameAdmissions, retained_declaringAt fresh place known,
      sameValue]
  · intro unknown
    obtain ⟨before, after, told, toldAlso⟩ :=
      declarations_retained_declaringAt fresh place absent unknown
    refine ⟨admissions [] contributions ++ before,
      after ++ verdict (resolve contributions).value, ?_, ?_⟩
    · rw [events_resolve, told]
      simp only [List.append_assoc]
    · rw [events_resolve, sameAdmissions, sameValue, toldAlso]
      simp only [List.append_assoc, List.cons_append, contributions]

/-- An override of an absent module declared between two others, by a module that lies on a
cycle. -/
theorem resolve_of_absent_target_on_cycle :
    let earlier : List Contribution := [.plain "outer" ["left"], .plain "right" ["outer"]]
    let module := Contribution.plain "left" ["right", "base"]
    let later : List Contribution := [.plain "base" [], .plain "left" []]
    let target := Identity.named "absent"
    (∀ other ∈ earlier ++ module :: later, other.key ≠ target.key) ∧
      ∃ fresh : target.key ∉ module.overrides.elements.map Identity.key,
        let contributions := earlier ++ module :: later
        let extended := earlier ++ module.declaringAt 1 target fresh :: later
        (resolve extended).value = (resolve contributions).value ∧
          (module.key ∈ earlier.map Contribution.key →
            (resolve extended).events = (resolve contributions).events) ∧
          (module.key ∉ earlier.map Contribution.key → ∃ before after,
            (resolve contributions).events = before ++ after ∧
            (resolve extended).events =
              before ++ .ignoredOverride module.moduleName target.defaultName :: after) := by
  intro earlier module later target
  have absent : ∀ other ∈ earlier ++ module :: later, other.key ≠ target.key := by decide
  have fresh : target.key ∉ module.overrides.elements.map Identity.key := by decide
  exact ⟨absent, fresh, resolve_of_absent_target absent fresh 1⟩

end Overlay
