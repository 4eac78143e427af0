import Overlay.Contribution

/-!
# Drafts that are built on the way

A draft may be built and taken up again at any point.  This settles whether the module is
deprecated, which the draft may have left open, so the draft is not the same as before.  But
drafts that build the same contribution still do so after one more step, and therefore nothing
that is built later shows how often a draft was built before.
-/

namespace Overlay

namespace Draft

/-! ## What drafts are started from -/

/-- The beginning of a draft. -/
inductive Start where
  | ofType (tag name : String) (unit : ModuleUnit)
  | shared (fresh : Uuid) (name : String) (unit : ModuleUnit)
  | identified (id : Identity) (unit : ModuleUnit)
  | ofBindings (fresh : Uuid) (name : String) (bindings : List (String × Value))

namespace Start

/-- The draft before the first step. -/
def draft : Start → Draft
  | .ofType tag name unit => .ofType tag name unit
  | .shared fresh name unit => .shared fresh name unit
  | .identified id unit => .identified id unit
  | .ofBindings fresh name bindings => .ofBindings fresh name bindings

/-- The unit that is drafted for.  Bindings of no module type carry no mark. -/
def unit : Start → ModuleUnit
  | .ofType _ _ unit => unit
  | .shared _ _ unit => unit
  | .identified _ unit => unit
  | .ofBindings _ _ bindings => ⟨bindings, false⟩

def id : Start → Identity
  | .ofType tag name _ => .typed tag name
  | .shared fresh _ _ => .synthetic fresh
  | .identified id _ => id
  | .ofBindings fresh _ _ => .synthetic fresh

/-- The name that comes with the beginning. -/
def name? : Start → Option String
  | .ofType .. => none
  | .shared _ name _ => some name
  | .identified .. => none
  | .ofBindings _ name _ => some name

theorem draft_eq (start : Start) :
    start.draft =
      { unit := start.unit
        id := start.id
        name := start.name?
        provider := none
        description := none
        deprecated := if start.unit.deprecated then some true else none
        overrides := .empty
        configs := .empty } := by
  cases start <;> rfl

end Start

/-! ## Drafts that build the same -/

/-- No contribution tells the drafts apart. -/
def Alike (first second : Draft) : Prop := first.build = second.build

theorem applyAll_cons (draft : Draft) (step : Step) (rest : List Step) :
    draft.applyAll (step :: rest) = (draft.apply step).applyAll rest := rfl

theorem applyAll_concat (draft : Draft) (steps : List Step) (step : Step) :
    draft.applyAll (steps ++ [step]) = (draft.applyAll steps).apply step :=
  List.foldl_append

/-- A contribution loses nothing when it is drafted again. -/
theorem build_toDraft (contribution : Contribution) :
    contribution.toDraft.build = contribution := rfl

theorem alike_rebuild (draft : Draft) : Alike (draft.apply .rebuild) draft :=
  build_toDraft draft.build

/-- A step sees no more of a draft than what is built of it. -/
theorem build_apply (draft : Draft) (step : Step) :
    (draft.apply step).build = (draft.build.toDraft.apply step).build := by
  -- The two drafts differ in the flag only, where building reads `none` as `some false`.
  cases step <;> rfl

section Alike

variable {first second : Draft}

theorem Alike.apply (alike : Alike first second) (step : Step) :
    Alike (first.apply step) (second.apply step) := by
  rw [Alike, build_apply first, build_apply second, alike]

theorem Alike.applyAll (alike : Alike first second) (steps : List Step) :
    Alike (first.applyAll steps) (second.applyAll steps) := by
  induction steps generalizing first second with
  | nil => exact alike
  | cons step rest ih => exact ih (alike.apply step)

end Alike

/-- The same steps, between which the draft is built and taken up again any number of times,
also before the first of them and after the last. -/
inductive Interrupted : List Step → List Step → Prop where
  | done : Interrupted [] []
  | keep {steps others : List Step} (step : Step) :
      Interrupted steps others → Interrupted (step :: steps) (step :: others)
  | rebuild {steps others : List Step} :
      Interrupted steps others → Interrupted steps (.rebuild :: others)

/-- Interruptions are forgotten. -/
theorem Interrupted.alike {steps others : List Step} (interrupted : Interrupted steps others)
    (draft : Draft) : Alike (draft.applyAll others) (draft.applyAll steps) := by
  induction interrupted generalizing draft with
  | done => rfl
  | keep step _ ih => exact ih (draft.apply step)
  | rebuild _ ih => exact (ih (draft.apply .rebuild)).trans ((alike_rebuild draft).applyAll _)

/-! ## What steps say -/

namespace Step

def name? : Step → Option String
  | .name text => some text
  | _ => none

def description? : Step → Option String
  | .description text => some text
  | _ => none

def provider? : Step → Option String
  | .provider text => some text
  | _ => none

/-- The provider that the step names if there is none. -/
def offeredProvider? : Step → Option String
  | .orProvider text => some text
  | _ => none

def deprecated? : Step → Option Bool
  | .deprecated flag => some flag
  | _ => none

/-- The modules that the step declares to be overridden. -/
def targets : Step → List Identity
  | .overrides target => [target]
  | .overridesAll targets => targets
  | _ => []

/-- The setting that the step declares. -/
def settings : Step → List (String × String)
  | .config path label => [(path, label)]
  | _ => []

end Step

/-- What the first step with something to say says. -/
def first? {α : Type} (reads : Step → Option α) (steps : List Step) : Option α :=
  steps.findSome? reads

/-- What the last step with something to say says. -/
def last? {α : Type} (reads : Step → Option α) (steps : List Step) : Option α :=
  steps.reverse.findSome? reads

theorem first?_cons {α : Type} (reads : Step → Option α) (step : Step) (rest : List Step) :
    first? reads (step :: rest) = (reads step).or (first? reads rest) := by
  cases read : reads step <;> simp [first?, read]

theorem last?_cons {α : Type} (reads : Step → Option α) (step : Step) (rest : List Step) :
    last? reads (step :: rest) = (last? reads rest).or (reads step) := by
  simp [last?, List.findSome?_append]

/-! ## What steps make of a draft -/

section Parts

variable {α : Type}

/-- What no step changes stays. -/
theorem part_applyAll_of_kept (part : Draft → α)
    (stepwise : ∀ draft step, part (apply draft step) = part draft)
    (draft : Draft) (steps : List Step) : part (draft.applyAll steps) = part draft := by
  induction steps generalizing draft with
  | nil => rfl
  | cons step rest ih => rw [applyAll_cons, ih, stepwise]

/-- Of what steps set the last counts, and of what they offer in case that there is nothing yet
the first. -/
theorem part_applyAll_of_offered (part : Draft → Option α) (sets offers : Step → Option α)
    (stepwise : ∀ draft step,
      part (apply draft step) = ((sets step).or (part draft)).or (offers step))
    (draft : Draft) (steps : List Step) :
    part (draft.applyAll steps) =
      ((last? sets steps).or (part draft)).or (first? offers steps) := by
  induction steps generalizing draft with
  | nil => simp [applyAll, last?, first?]
  | cons step rest ih =>
      rw [applyAll_cons, ih, stepwise, last?_cons, first?_cons]
      simp only [Option.or_assoc]

theorem part_applyAll_of_set (part : Draft → Option α) (sets : Step → Option α)
    (stepwise : ∀ draft step, part (apply draft step) = (sets step).or (part draft))
    (draft : Draft) (steps : List Step) :
    part (draft.applyAll steps) = (last? sets steps).or (part draft) := by
  have nothing : first? (fun _ => (none : Option α)) steps = none :=
    List.findSome?_eq_none_iff.mpr fun _ _ => rfl
  rw [part_applyAll_of_offered part sets fun _ => none, nothing, Option.or_none]
  intro draft step
  rw [stepwise, Option.or_none]

/-- What steps add is added in order. -/
theorem part_applyAll_of_added {β : Type} (part : Draft → α) (adds : Step → List β)
    (insert : α → β → α)
    (stepwise : ∀ draft step, part (apply draft step) = (adds step).foldl insert (part draft))
    (draft : Draft) (steps : List Step) :
    part (draft.applyAll steps) = (steps.flatMap adds).foldl insert (part draft) := by
  induction steps generalizing draft with
  | nil => rfl
  | cons step rest ih =>
      rw [applyAll_cons, ih, stepwise, List.flatMap_cons, List.foldl_append]

end Parts

section Run

variable (draft : Draft) (steps : List Step)

theorem unit_applyAll : (draft.applyAll steps).unit = draft.unit := by
  apply part_applyAll_of_kept Draft.unit
  intro draft step
  cases step <;> rfl

theorem id_applyAll : (draft.applyAll steps).id = draft.id := by
  apply part_applyAll_of_kept Draft.id
  intro draft step
  cases step <;> rfl

theorem name_applyAll :
    (draft.applyAll steps).name = (last? Step.name? steps).or draft.name := by
  apply part_applyAll_of_set Draft.name
  intro draft step
  cases step <;> rfl

theorem description_applyAll :
    (draft.applyAll steps).description =
      (last? Step.description? steps).or draft.description := by
  apply part_applyAll_of_set Draft.description
  intro draft step
  cases step <;> rfl

theorem provider_applyAll :
    (draft.applyAll steps).provider =
      ((last? Step.provider? steps).or draft.provider).or
        (first? Step.offeredProvider? steps) := by
  apply part_applyAll_of_offered Draft.provider
  intro draft step
  cases step with
  | provider text => rfl
  | orProvider text => rfl
  | _ => exact Option.or_none.symm

/-- Building settles whether the module is deprecated as it would be settled in the end. -/
theorem deprecated_build_applyAll :
    (draft.applyAll steps).build.deprecated =
      (last? Step.deprecated? steps).getD draft.build.deprecated := by
  have settled : some (draft.applyAll steps).build.deprecated =
      (last? Step.deprecated? steps).or (some draft.build.deprecated) := by
    apply part_applyAll_of_set fun draft => some draft.build.deprecated
    intro draft step
    cases step <;> rfl
  rw [Option.or_some] at settled
  exact Option.some.inj settled

theorem overrides_applyAll :
    (draft.applyAll steps).overrides = draft.overrides.extend (steps.flatMap Step.targets) := by
  apply part_applyAll_of_added Draft.overrides Step.targets OrderedSet.insert
  intro draft step
  cases step <;> rfl

theorem configs_applyAll :
    (draft.applyAll steps).configs = draft.configs.extend (steps.flatMap Step.settings) := by
  apply part_applyAll_of_added Draft.configs Step.settings
    fun configs setting => configs.insert setting.1 setting.2
  intro draft step
  cases step <;> rfl

end Run

/-! ## What is built in the end -/

/-- A contribution is what its beginning and the steps after it say. -/
structure WrittenBy (start : Start) (steps : List Step) (built : Contribution) : Prop where
  unit : built.unit = start.unit
  id : built.id = start.id
  name : built.name = (last? Step.name? steps).or start.name?
  description : built.description = last? Step.description? steps
  /-- A provider that some step names counts, whenever others were offered. -/
  provider : built.provider =
    (last? Step.provider? steps).or (first? Step.offeredProvider? steps)
  /-- The module is deprecated if the last step about it says so; if none does, its mark counts. -/
  deprecated : built.deprecated = (last? Step.deprecated? steps).getD start.unit.deprecated
  overrides : built.overrides = .ofList (steps.flatMap Step.targets)
  configs : built.configs = .ofList (steps.flatMap Step.settings)

theorem writtenBy_build (start : Start) (steps : List Step) :
    WrittenBy start steps (start.draft.applyAll steps).build := by
  have mark : start.draft.build.deprecated = start.unit.deprecated := by
    rw [start.draft_eq]
    cases start.unit.deprecated <;> simp [build]
  rw [start.draft_eq] at mark ⊢
  constructor
  case unit => exact unit_applyAll _ steps
  case id => exact id_applyAll _ steps
  case name => exact name_applyAll _ steps
  case description => exact (description_applyAll _ steps).trans Option.or_none
  case provider => exact (provider_applyAll _ steps).trans (by rw [Option.or_none])
  case deprecated => exact (deprecated_build_applyAll _ steps).trans (by rw [mark])
  case overrides => exact overrides_applyAll _ steps
  case configs => exact configs_applyAll _ steps

/-- However often a draft is built on the way, what is built in the end is the same, and it is
what the beginning and the steps say.  In particular nothing is lost when it is declared to
override one more module. -/
theorem rebuilding_unobservable (start : Start) {steps others : List Step}
    (interrupted : Interrupted steps others) :
    (start.draft.applyAll others).build = (start.draft.applyAll steps).build ∧
      WrittenBy start steps (start.draft.applyAll others).build ∧
      ∀ target, (start.draft.applyAll others).build.overriding target =
        (start.draft.applyAll (steps ++ [.overrides target])).build := by
  have same : (start.draft.applyAll others).build = (start.draft.applyAll steps).build :=
    interrupted.alike start.draft
  refine ⟨same, same ▸ writtenBy_build start steps, ?_⟩
  intro target
  rw [same, Contribution.overriding, ← build_apply, applyAll_concat]

/-- A module that is marked as deprecated is said to be current, after the draft was built. -/
theorem rebuilding_of_marked :
    let start : Start := .ofType "legacy" "app::Legacy" ⟨[("level", .text "info")], true⟩
    let steps : List Step :=
      [.name "legacy", .overridesAll [.named "core", .named "cache", .named "core"],
        .orProvider "app", .deprecated false, .config "legacy.port" "u16"]
    let others : List Step :=
      [.rebuild, .name "legacy", .overridesAll [.named "core", .named "cache", .named "core"],
        .rebuild, .rebuild, .orProvider "app", .deprecated false, .config "legacy.port" "u16",
        .rebuild]
    Interrupted steps others ∧
      (start.draft.applyAll others).build = (start.draft.applyAll steps).build ∧
      WrittenBy start steps (start.draft.applyAll others).build ∧
      ∀ target, (start.draft.applyAll others).build.overriding target =
        (start.draft.applyAll (steps ++ [.overrides target])).build := by
  intro start steps others
  have interrupted : Interrupted steps others :=
    .rebuild (.keep _ (.keep _ (.rebuild (.rebuild
      (.keep _ (.keep _ (.keep _ (.rebuild .done))))))))
  exact ⟨interrupted, rebuilding_unobservable start interrupted⟩

end Draft

end Overlay
