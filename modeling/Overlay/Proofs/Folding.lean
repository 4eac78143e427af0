import Mathlib.Data.List.Forall2
import Overlay.Effective
import Overlay.Proofs.Graph.LoadOrder

/-!
# Folding follows the overrides

`FoldsTo` says what a module amounts to together with everything below it, without an
order and without slots.  Folding a graph in which every module has at most one
overrider, in an order that lists overridden modules first, finds exactly this for every
outermost module.
-/

namespace Overlay

/-- What folding a node of an override structure gives: its own description on top of
what its bases fold to, in the order of its declarations. -/
inductive FoldsTo {ι : Type} (describe : ι → Descriptor) (bases : ι → List ι) :
    ι → EffectiveModule → Prop where
  | layered {node : ι} {below : List EffectiveModule}
      (folded : List.Forall₂ (FoldsTo describe bases) (bases node) below) :
      FoldsTo describe bases node (.layered (describe node) below)

theorem eq_of_forall₂_unique {α β : Type} {related : α → β → Prop} {nodes : List α}
    {left right : List β}
    (unique : List.Forall₂ (fun node first => ∀ second, related node second → first = second)
      nodes left)
    (other : List.Forall₂ related nodes right) : left = right := by
  induction unique generalizing right with
  | nil =>
      cases other
      rfl
  | cons head _ ih =>
      cases other with
      | cons first rest => rw [head _ first, ih rest]

namespace FoldsTo

variable {ι κ : Type} {describe : ι → Descriptor} {bases : ι → List ι}

/-- Induction over a folded structure, with the hypothesis for every base. -/
@[elab_as_elim]
theorem induct {motive : ι → EffectiveModule → Prop}
    (layered : ∀ node below, List.Forall₂ (FoldsTo describe bases) (bases node) below →
      List.Forall₂ motive (bases node) below → motive node (.layered (describe node) below))
    {node : ι} {effect : EffectiveModule} (folds : FoldsTo describe bases node effect) :
    motive node effect := by
  refine @FoldsTo.rec ι describe bases (fun node effect _ => motive node effect)
    (fun nodes below _ => List.Forall₂ motive nodes below) ?_ ?_ ?_ node effect folds
  · intro node below folded hypotheses
    exact layered node below folded hypotheses
  · exact .nil
  · intro _ _ _ _ _ _ head tail
    exact .cons head tail

/-- A node folds to one effective module only. -/
theorem unique {node : ι} {left right : EffectiveModule}
    (first : FoldsTo describe bases node left) (second : FoldsTo describe bases node right) :
    left = right := by
  refine induct (motive := fun node left => ∀ right, FoldsTo describe bases node right →
    left = right) ?_ first right second
  intro node below _ hypotheses right second
  cases second with
  | layered folded => rw [eq_of_forall₂_unique hypotheses folded]

/-- One function from nodes to effects describes whatever nodes are folded. -/
theorem exists_effect (describe : ι → Descriptor) (bases : ι → List ι) :
    ∃ effect : ι → EffectiveModule, ∀ nodes found,
      List.Forall₂ (FoldsTo describe bases) nodes found → found = nodes.map effect := by
  -- A node folds to one effect at most, so any choice of an effect is the only one.
  refine ⟨fun node => Classical.epsilon (FoldsTo describe bases node), ?_⟩
  intro nodes found folded
  induction folded with
  | nil => rfl
  | cons folds _ ih =>
      rw [List.map_cons, ← ih, (Classical.epsilon_spec ⟨_, folds⟩).unique folds]

theorem name_eq {node : ι} {effect : EffectiveModule} (folds : FoldsTo describe bases node effect) :
    effect.name = (describe node).name := by
  cases folds
  rfl

/-- Renaming the nodes changes nothing, as long as descriptions and bases follow. -/
theorem map {described : κ → Descriptor} {based : κ → List κ} (image : ι → κ)
    (valid : ι → Prop) (closed : ∀ node, valid node → ∀ base ∈ bases node, valid base)
    (sameDescription : ∀ node, valid node → described (image node) = describe node)
    (sameBases : ∀ node, valid node → based (image node) = (bases node).map image)
    {node : ι} {effect : EffectiveModule} (folds : FoldsTo describe bases node effect)
    (holds : valid node) : FoldsTo described based (image node) effect := by
  refine induct (motive := fun node effect => valid node →
    FoldsTo described based (image node) effect) ?_ folds holds
  intro node below folded hypotheses holds
  clear folded
  rw [← sameDescription node holds]
  refine .layered ?_
  rw [sameBases node holds, List.forall₂_map_left_iff]
  have basesValid := closed node holds
  generalize bases node = nodes at hypotheses basesValid
  induction hypotheses with
  | nil => exact .nil
  | cons head _ ih =>
      refine .cons (head (basesValid _ List.mem_cons_self)) (ih ?_)
      exact fun base member => basesValid base (List.mem_cons_of_mem _ member)

end FoldsTo

/-! ## Slots -/

namespace Folding

theorem withdraw_cons (target : Nat) (rest : List Nat)
    (pending : List (Option EffectiveModule)) :
    withdraw (target :: rest) pending =
      ((pending[target]?).join.toList ++ (withdraw rest (pending.set target none)).1,
        (withdraw rest (pending.set target none)).2) := by
  rw [withdraw]
  cases pending[target]? with
  | none => rfl
  | some slot => cases slot <;> rfl

/-- Withdrawing hands out what the slots hold, in the order asked for. -/
theorem withdraw_fst {targets : List Nat} (distinct : targets.Nodup)
    (pending : List (Option EffectiveModule)) :
    (withdraw targets pending).1 = targets.filterMap fun index => (pending[index]?).join := by
  induction targets generalizing pending with
  | nil => rfl
  | cons target rest ih =>
      rw [List.nodup_cons] at distinct
      have untouched : (rest.filterMap fun index => ((pending.set target none)[index]?).join) =
          rest.filterMap fun index => (pending[index]?).join := by
        apply List.filterMap_congr
        intro index member
        have different : target ≠ index := fun same => distinct.1 (same ▸ member)
        rw [List.getElem?_set_ne different]
      rw [withdraw_cons, ih distinct.2, untouched, List.filterMap_cons]
      cases (pending[target]?).join <;> rfl

/-- Withdrawing empties the slots asked for and no other. -/
theorem getElem?_withdraw_snd (targets : List Nat) (pending : List (Option EffectiveModule))
    (index : Nat) :
    (withdraw targets pending).2[index]? =
      if index ∈ targets then (pending[index]?).map fun _ => none else pending[index]? := by
  induction targets generalizing pending with
  | nil => simp [withdraw]
  | cons target rest ih =>
      rw [withdraw_cons, ih]
      by_cases same : index = target
      · subst same
        by_cases bound : index < pending.length <;> simp [bound]
      · simp [same, List.getElem?_set_ne (Ne.symm same)]

/-- Withdrawing leaves the slots asked for without an effect, and the others as they are. -/
theorem join_withdraw_snd (targets : List Nat) (pending : List (Option EffectiveModule))
    (index : Nat) :
    ((withdraw targets pending).2[index]?).join =
      if index ∈ targets then none else (pending[index]?).join := by
  rw [getElem?_withdraw_snd]
  split
  · cases pending[index]? <;> rfl
  · rfl

theorem length_withdraw_snd (targets : List Nat) (pending : List (Option EffectiveModule)) :
    (withdraw targets pending).2.length = pending.length := by
  induction targets generalizing pending with
  | nil => rfl
  | cons target rest ih => rw [withdraw_cons, ih, List.length_set]

end Folding

/-! ## Folding a graph -/

namespace OverrideGraph

variable {graph : OverrideGraph}

/-- The module at a node. -/
def describe (graph : OverrideGraph) (index : Nat) : Descriptor :=
  graph.nodes[index]?.getD default

/-- Modules of the graph, none twice, each one after everything that it overrides. -/
structure BasesFirst (graph : OverrideGraph) (order : List Nat) : Prop where
  bounded : ∀ index ∈ order, index < graph.size
  nodup : order.Nodup
  based : ∀ done index rest, order = done ++ index :: rest →
    ∀ target, graph.Overrides index target → target ∈ done

/-- A module has not been listed before its place. -/
theorem BasesFirst.fresh {order : List Nat} (basesFirst : graph.BasesFirst order)
    {done rest : List Nat} {index : Nat} (split : order = done ++ index :: rest) :
    index ∉ done := by
  have nodup := basesFirst.nodup
  rw [split] at nodup
  exact fun earlier => List.disjoint_of_nodup_append nodup earlier List.mem_cons_self

theorem basesFirst_of_perm {order : List Nat} (perm : order.Perm (List.range graph.size))
    (first : ∀ source target, graph.Overrides source target →
      order.idxOf target < order.idxOf source) : graph.BasesFirst order := by
  have nodup : order.Nodup := perm.nodup_iff.mpr List.nodup_range
  constructor
  case bounded => exact fun index member => List.mem_range.mp (perm.mem_iff.mp member)
  case nodup => exact nodup
  case based =>
    intro done index rest split target edge
    have fresh : index ∉ done := by
      rw [split] at nodup
      exact fun earlier => List.disjoint_of_nodup_append nodup earlier List.mem_cons_self
    have before := first index target edge
    rw [split, List.idxOf_append_of_notMem fresh, List.idxOf_cons_self, Nat.add_zero] at before
    by_contra later
    rw [List.idxOf_append_of_notMem later] at before
    exact Nat.not_lt.mpr (Nat.le_add_right _ _) before

/-- What holds after the modules in `done` have been folded. -/
structure FoldInvariant (graph : OverrideGraph) (done : List Nat) (folding : Folding) :
    Prop where
  slots : folding.pending.length = graph.size
  /-- A module waits in its slot until its overrider comes. -/
  waiting : ∀ index ∈ done, graph.isOverridden index = true →
    (∀ source, graph.Overrides source index → source ∉ done) →
    ∃ effect, folding.pending[index]? = some (some effect) ∧
      FoldsTo graph.describe graph.successors index effect
  finished : List.Forall₂ (FoldsTo graph.describe graph.successors)
    (done.filter fun index => !graph.isOverridden index) folding.finished

/-- Folding one module, with the slots written out. -/
theorem step_eq {index : Nat} (bound : index < graph.size) (folding : Folding) :
    Folding.step graph folding index =
      let bases := (Folding.withdraw (graph.successors index) folding.pending).1
      let left := (Folding.withdraw (graph.successors index) folding.pending).2
      let effect := EffectiveModule.layered (graph.describe index) bases
      if graph.isOverridden index then
        { folding with pending := left.set index (some effect) }
      else
        { pending := left, finished := folding.finished ++ [effect] } := by
  have found : graph.nodes[index]? = some (graph.describe index) := by
    rw [describe, List.getElem?_eq_getElem bound, Option.getD_some]
  rw [Folding.step, found]

/-- The bases withdrawn for a module are what its declared targets fold to. -/
theorem FoldInvariant.bases (consistent : graph.Consistent) (single : graph.SinglyOverridden)
    {done : List Nat} {folding : Folding} (held : graph.FoldInvariant done folding)
    {index : Nat} (fresh : index ∉ done)
    (based : ∀ target, graph.Overrides index target → target ∈ done) :
    List.Forall₂ (FoldsTo graph.describe graph.successors) (graph.successors index)
      (Folding.withdraw (graph.successors index) folding.pending).1 := by
  rw [Folding.withdraw_fst (consistent.successors_nodup index)]
  have each : ∀ target ∈ graph.successors index, ∃ effect,
      (folding.pending[target]?).join = some effect ∧
        FoldsTo graph.describe graph.successors target effect := by
    intro target edge
    have overridden := consistent.isOverridden_iff.mpr ⟨index, edge⟩
    have unclaimed : ∀ source, graph.Overrides source target → source ∉ done := by
      intro source other
      rw [single source index target other edge]
      exact fresh
    rcases held.waiting target (based target edge) overridden unclaimed with
      ⟨effect, inSlot, folds⟩
    exact ⟨effect, by rw [inSlot, Option.join_some], folds⟩
  generalize graph.successors index = targets at each
  induction targets with
  | nil => exact .nil
  | cons target rest ih =>
      rcases each target List.mem_cons_self with ⟨effect, inSlot, folds⟩
      rw [List.filterMap_cons, inSlot]
      exact .cons folds (ih fun other member => each other (List.mem_cons_of_mem _ member))

/-- Folding the next module keeps the invariant. -/
theorem FoldInvariant.step (consistent : graph.Consistent) (single : graph.SinglyOverridden)
    {done : List Nat} {folding : Folding} (held : graph.FoldInvariant done folding)
    {index : Nat} (bound : index < graph.size) (fresh : index ∉ done)
    (based : ∀ target, graph.Overrides index target → target ∈ done) :
    graph.FoldInvariant (done ++ [index]) (Folding.step graph folding index) := by
  have folds := FoldsTo.layered (held.bases consistent single fresh based)
  have slots := (Folding.length_withdraw_snd (graph.successors index) folding.pending).trans
    held.slots
  -- A module folded earlier keeps its slot unless this module overrides it.
  have kept : ∀ other ∈ done, graph.isOverridden other = true →
      (∀ source, graph.Overrides source other → source ∉ done ++ [index]) →
      ∃ effect, (Folding.withdraw (graph.successors index) folding.pending).2[other]? =
        some (some effect) ∧ FoldsTo graph.describe graph.successors other effect := by
    intro other member overridden unclaimed
    have notBase : other ∉ graph.successors index := fun edge =>
      unclaimed index edge (List.mem_append_right _ (List.mem_singleton_self index))
    rw [Folding.getElem?_withdraw_snd, if_neg notBase]
    exact held.waiting other member overridden fun source edge earlier =>
      unclaimed source edge (List.mem_append_left _ earlier)
  rw [step_eq bound]
  cases overridden : graph.isOverridden index with
  | true =>
      simp only [if_true]
      constructor
      case slots => rw [List.length_set, slots]
      case waiting =>
        intro other member otherOverridden unclaimed
        by_cases same : other = index
        · subst same
          exact ⟨_, List.getElem?_set_self (slots ▸ bound), folds⟩
        · rw [List.getElem?_set_ne (Ne.symm same)]
          have earlier : other ∈ done := by simpa [same] using member
          exact kept other earlier otherOverridden unclaimed
      case finished =>
        rw [List.filter_append, List.filter_singleton, overridden]
        simpa using held.finished
  | false =>
      simp only [Bool.false_eq_true, if_false]
      constructor
      case slots => exact slots
      case waiting =>
        intro other member otherOverridden unclaimed
        have different : other ≠ index := by
          intro same
          rw [same, overridden] at otherOverridden
          cases otherOverridden
        have earlier : other ∈ done := by simpa [different] using member
        exact kept other earlier otherOverridden unclaimed
      case finished =>
        rw [List.filter_append, List.filter_singleton, overridden]
        exact List.rel_append held.finished (.cons folds .nil)

/-- Folding the rest of an order keeps the invariant. -/
theorem FoldInvariant.run (consistent : graph.Consistent) (single : graph.SinglyOverridden)
    {order : List Nat} (basesFirst : graph.BasesFirst order) (rest : List Nat) :
    ∀ {done : List Nat} {folding : Folding}, order = done ++ rest →
      graph.FoldInvariant done folding →
      graph.FoldInvariant order (rest.foldl (Folding.step graph) folding) := by
  -- What is folded moves from `rest` to `done`; together they remain the order.
  induction rest with
  | nil =>
      intro done folding split held
      rw [split, List.append_nil]
      exact held
  | cons index rest ih =>
      intro done folding split held
      have fresh := basesFirst.fresh split
      have bound := basesFirst.bounded index (by simp [split])
      have based := basesFirst.based done index rest split
      rw [List.append_cons] at split
      exact ih split (held.step consistent single bound fresh based)

/-- Folding in an order that lists bases first gives each outermost module, in the order
of the list, as what it folds to. -/
theorem fold_foldsTo (consistent : graph.Consistent) (single : graph.SinglyOverridden)
    {order : List Nat} (basesFirst : graph.BasesFirst order) :
    List.Forall₂ (FoldsTo graph.describe graph.successors)
      (order.filter fun index => !graph.isOverridden index) (graph.fold order) := by
  have initial : graph.FoldInvariant [] ⟨List.replicate graph.size none, []⟩ := by
    constructor
    case slots => exact List.length_replicate
    case waiting => exact fun index member => (List.not_mem_nil member).elim
    case finished => exact .nil
  exact (FoldInvariant.run consistent single basesFirst order rfl initial).finished

end OverrideGraph

end Overlay
