import Mathlib.Data.List.Nodup
import Mathlib.Logic.Relation
import Overlay.OverrideGraph
import Overlay.Proofs.OrderedSet

/-!
# The edges of an override graph

Later modules never look into the tables of a graph.  They use the edge relation
`Overrides` and the facts collected in `Consistent`: both tables describe the same
edges, no edge is listed twice, and every edge joins two nodes.  The graph of a
roster is consistent, whatever the overrides on the roster are.
-/

namespace Overlay.OverrideGraph

open Relation

/-- An edge: the module at `source` overrides the module at `target`. -/
def Overrides (graph : OverrideGraph) (source target : Nat) : Prop :=
  target ∈ graph.successors source

/-- Some module overrides itself, directly or through others. -/
def Cyclic (graph : OverrideGraph) : Prop :=
  ∃ index, TransGen graph.Overrides index index

/-- A module that lies on a cycle, or that a module on a cycle overrides directly or
through others. -/
def BelowCycle (graph : OverrideGraph) (index : Nat) : Prop :=
  ∃ member, TransGen graph.Overrides member member ∧
    ReflTransGen graph.Overrides member index

/-- No module has two overriders. -/
def SinglyOverridden (graph : OverrideGraph) : Prop :=
  ∀ first second target, graph.Overrides first target → graph.Overrides second target →
    first = second

/-- What holds of the tables of a graph that was built from a roster. -/
structure Consistent (graph : OverrideGraph) : Prop where
  source_lt : ∀ {source target}, graph.Overrides source target → source < graph.size
  target_lt : ∀ {source target}, graph.Overrides source target → target < graph.size
  mem_incoming : ∀ {source target},
    source ∈ graph.incoming target ↔ graph.Overrides source target
  successors_nodup : ∀ index, (graph.successors index).Nodup
  incoming_sorted : ∀ index, (graph.incoming index).Pairwise (· < ·)

variable {graph : OverrideGraph}

theorem isOverridden_eq_false_iff {index : Nat} :
    graph.isOverridden index = false ↔ graph.incoming index = [] := by
  simp only [isOverridden, Bool.not_eq_false', List.isEmpty_iff]

namespace Consistent

variable (consistent : graph.Consistent)
include consistent

theorem incoming_nodup (index : Nat) : (graph.incoming index).Nodup :=
  (consistent.incoming_sorted index).imp Nat.ne_of_lt

/-- Overriders are listed in roster order from the start, so sorting them changes nothing. -/
theorem mergeSort_incoming (index : Nat) :
    (graph.incoming index).mergeSort (fun left right => left ≤ right) = graph.incoming index := by
  apply List.mergeSort_of_pairwise
  simpa using (consistent.incoming_sorted index).imp Nat.le_of_lt

theorem isOverridden_iff {index : Nat} :
    graph.isOverridden index = true ↔ ∃ source, graph.Overrides source index := by
  simp only [isOverridden, Bool.not_eq_true', List.isEmpty_eq_false_iff_exists_mem,
    consistent.mem_incoming]

/-- Whatever lies below a node is a node. -/
theorem lt_of_reflTransGen {source target : Nat} (bound : source < graph.size)
    (path : ReflTransGen graph.Overrides source target) : target < graph.size := by
  cases path.cases_tail with
  | inl same => exact same ▸ bound
  | inr last =>
      rcases last with ⟨_, _, edge⟩
      exact consistent.target_lt edge

/-- Modules that can be ranked above everything they override do not override each other
in a circle. -/
theorem not_cyclic_of_rank (rank : Nat → Nat)
    (above : ∀ source < graph.size, ∀ target ∈ graph.successors source,
      rank target < rank source) : ¬ graph.Cyclic := by
  intro cyclic
  rcases cyclic with ⟨index, around⟩
  have falls : TransGen (fun left right => right < left) (rank index) (rank index) :=
    around.lift rank fun source target edge => above source (consistent.source_lt edge) target edge
  rw [transGen_eq_self] at falls
  exact Nat.lt_irrefl _ falls

end Consistent

/-! ## Tables -/

section Tabulated

variable (tabulated : graph.overriders = (List.range graph.size).map fun index =>
  (List.range graph.size).filter fun source => (graph.successors source).contains index)
include tabulated

theorem incoming_of_tabulated (index : Nat) :
    graph.incoming index =
      if index < graph.size then
        (List.range graph.size).filter fun source => decide (index ∈ graph.successors source)
      else [] := by
  by_cases bound : index < graph.size
  · simp [incoming, tabulated, bound]
  · simp [incoming, tabulated, bound]

/-- The table of overriders may be computed from the other one: the two then agree. -/
theorem Consistent.of_tabulated
    (source_lt : ∀ {source target}, graph.Overrides source target → source < graph.size)
    (target_lt : ∀ {source target}, graph.Overrides source target → target < graph.size)
    (successors_nodup : ∀ index, (graph.successors index).Nodup) : graph.Consistent := by
  constructor
  case source_lt => exact source_lt
  case target_lt => exact target_lt
  case mem_incoming =>
    intro source target
    rw [incoming_of_tabulated tabulated]
    split
    · simp only [List.mem_filter, List.mem_range, decide_eq_true_eq]
      exact ⟨fun both => both.2, fun edge => ⟨source_lt edge, edge⟩⟩
    · next outside =>
        exact ⟨fun member => (List.not_mem_nil member).elim,
          fun edge => (outside (target_lt edge)).elim⟩
  case successors_nodup => exact successors_nodup
  case incoming_sorted =>
    intro index
    rw [incoming_of_tabulated tabulated]
    split
    · exact List.pairwise_lt_range.filter _
    · exact List.Pairwise.nil

end Tabulated

/-! ## Filling the tables -/

/-- A row lists what was there and then what was entered in it. -/
theorem getElem?_foldl_enter (entries : List (Nat × Nat)) (rows : List (List Nat)) (index : Nat) :
    (entries.foldl enter rows)[index]? =
      rows[index]?.map (· ++ (entries.filter fun entry => entry.1 = index).map Prod.snd) := by
  induction entries generalizing rows with
  | nil => simp
  | cons entry rest ih =>
      rw [List.foldl_cons, ih, enter, List.getElem?_modify, List.filter_cons]
      by_cases here : entry.1 = index
      · simp [here, Function.comp_def]
      · simp [here]

/-- Entering an edge in both tables enters it in each of them, in the other one reversed. -/
theorem overridden_foldl_add (edges : List (Nat × Nat)) (tables : EdgeTables) :
    (edges.foldl EdgeTables.add tables).overridden = edges.foldl enter tables.overridden :=
  (List.foldl_hom EdgeTables.overridden fun _ _ => rfl).symm

theorem overriders_foldl_add (edges : List (Nat × Nat)) (tables : EdgeTables) :
    (edges.foldl EdgeTables.add tables).overriders =
      (edges.map Prod.swap).foldl enter tables.overriders := by
  rw [List.foldl_map]
  exact (List.foldl_hom EdgeTables.overriders fun _ _ => rfl).symm

/-- The rows of some nodes as one list of edges. -/
def edgesOf (rows : Nat → List Nat) (count : Nat) : List (Nat × Nat) :=
  (List.range count).flatMap fun source => (rows source).map (source, ·)

theorem edgesOf_succ (rows : Nat → List Nat) (count : Nat) :
    edgesOf rows (count + 1) = edgesOf rows count ++ (rows count).map (count, ·) := by
  simp [edgesOf, List.range_succ]

theorem map_snd_edgesOf (rows : Nat → List Nat) (count index : Nat) :
    ((edgesOf rows count).filter fun edge => edge.1 = index).map Prod.snd =
      if index < count then rows index else [] := by
  induction count with
  | zero => simp [edgesOf]
  | succ count ih =>
      rw [edgesOf_succ, List.filter_append, List.map_append, ih]
      by_cases last : index = count
      · simp [last, List.filter_map, Function.comp_def]
      · have within : index < count + 1 ↔ index < count := by omega
        simp [within, List.filter_map, Function.comp_def, Ne.symm last]

/-- Rows without repetitions name a node once in each row that names it. -/
theorem map_fst_edgesOf {rows : Nat → List Nat} (distinct : ∀ source, (rows source).Nodup)
    (count index : Nat) :
    ((edgesOf rows count).filter fun edge => edge.2 = index).map Prod.fst =
      (List.range count).filter fun source => index ∈ rows source := by
  induction count with
  | zero => simp [edgesOf]
  | succ count ih =>
      rw [edgesOf_succ, List.filter_append, List.map_append, ih, List.range_succ,
        List.filter_append]
      congr 1
      by_cases last : index ∈ rows count
      · simp [last, List.filter_map, Function.comp_def, List.filter_eq,
          List.count_eq_one_of_mem (distinct count) last]
      · simp [last, List.filter_map, Function.comp_def, List.filter_eq,
          List.count_eq_zero_of_not_mem last]

/-! ## The graph of a roster -/

/-- The nodes that a module of the roster overrides, by its number. -/
def targetsAt (roster : Roster) (source : Nat) : List Nat :=
  ((roster.elements[source]?).map (targets roster)).getD []

theorem targets_eq (roster : Roster) (descriptor : Descriptor) :
    targets roster descriptor =
      (descriptor.overrides.elements.map Identity.key).filterMap roster.index? := by
  rw [List.filterMap_map]
  rfl

theorem mem_targets_iff {roster : Roster} {descriptor : Descriptor} {index : Nat} :
    index ∈ targets roster descriptor ↔
      ∃ found, roster.elements[index]? = some found ∧
        found.key ∈ descriptor.overrides.elements.map Identity.key := by
  rw [targets_eq, List.mem_filterMap]
  constructor
  · intro member
    rcases member with ⟨wanted, declared, placed⟩
    rcases roster.index?_eq_some_iff.mp placed with ⟨found, atIndex, rfl⟩
    exact ⟨found, atIndex, declared⟩
  · intro listed
    rcases listed with ⟨found, atIndex, declared⟩
    exact ⟨found.key, declared, roster.index?_eq_some_iff.mpr ⟨found, atIndex, rfl⟩⟩

theorem targets_nodup (roster : Roster) (descriptor : Descriptor) :
    (targets roster descriptor).Nodup := by
  rw [targets_eq]
  refine List.Nodup.filterMap ?_ descriptor.overrides.distinct
  intro left right index leftPlaced rightPlaced
  rcases roster.index?_eq_some_iff.mp leftPlaced with ⟨found, atIndex, rfl⟩
  rcases roster.index?_eq_some_iff.mp rightPlaced with ⟨other, atSame, rfl⟩
  rw [Option.some.inj (atIndex.symm.trans atSame)]

theorem targetsAt_nodup (roster : Roster) (source : Nat) : (targetsAt roster source).Nodup := by
  cases found : roster.elements[source]? with
  | none => simp [targetsAt, found]
  | some descriptor => simpa [targetsAt, found] using targets_nodup roster descriptor

theorem edges_eq (roster : Roster) : edges roster = edgesOf (targetsAt roster) roster.size := by
  have numbered : roster.elements.zipIdx =
      (List.range roster.size).map fun source =>
        (roster.elements[source]?.getD default, source) := by
    apply List.ext_getElem
    · simp [OrderedSet.size]
    · intro index bound _
      simp at bound
      simp [bound]
  rw [edges, numbered, List.flatMap_map]
  apply List.flatMap_congr
  intro source member
  have bound : source < roster.elements.length := List.mem_range.mp member
  simp [targetsAt, bound]

/-- Each row of the first table lists the nodes that one module overrides. -/
theorem overridden_ofRoster (roster : Roster) :
    (ofRoster roster).overridden = roster.elements.map (targets roster) := by
  apply List.ext_getElem?
  intro index
  rw [ofRoster, overridden_foldl_add, getElem?_foldl_enter, edges_eq, map_snd_edgesOf]
  by_cases bound : index < roster.elements.length
  · simp [OrderedSet.size, bound, targetsAt]
  · simp [OrderedSet.size, bound]

theorem successors_ofRoster (roster : Roster) (index : Nat) :
    (ofRoster roster).successors index =
      ((roster.elements[index]?).map (targets roster)).getD [] := by
  rw [successors, overridden_ofRoster, List.getElem?_map]

/-- Each row of the second table lists, in ascending order, the nodes that name one module. -/
theorem overriders_ofRoster (roster : Roster) :
    (ofRoster roster).overriders = (List.range roster.size).map fun index =>
      (List.range roster.size).filter fun source =>
        ((ofRoster roster).successors source).contains index := by
  have turned : ∀ index, (((edges roster).map Prod.swap).filter fun edge => edge.1 = index).map
      Prod.snd = (List.range roster.size).filter fun source => index ∈ targetsAt roster source := by
    intro index
    rw [← map_fst_edgesOf (targetsAt_nodup roster), ← edges_eq, List.filter_map, List.map_map]
    rfl
  have rows : (ofRoster roster).successors = targetsAt roster :=
    funext (successors_ofRoster roster)
  rw [rows]
  apply List.ext_getElem?
  intro index
  rw [ofRoster, overriders_foldl_add, getElem?_foldl_enter, turned]
  by_cases bound : index < roster.size
  · simp [bound]
  · simp [bound]

/-- An edge of the graph is a declared override of a module on the roster. -/
theorem overrides_ofRoster_iff {roster : Roster} {source target : Nat} :
    (ofRoster roster).Overrides source target ↔
      ∃ overrider found, roster.elements[source]? = some overrider ∧
        roster.elements[target]? = some found ∧
        found.key ∈ overrider.overrides.elements.map Identity.key := by
  rw [Overrides, successors_ofRoster]
  cases atSource : roster.elements[source]? with
  | none => simp
  | some overrider =>
      simp only [Option.map_some, Option.getD_some, mem_targets_iff, Option.some.injEq]
      constructor
      · intro listed
        rcases listed with ⟨found, atTarget, declared⟩
        exact ⟨overrider, found, rfl, atTarget, declared⟩
      · intro listed
        rcases listed with ⟨_, found, rfl, atTarget, declared⟩
        exact ⟨found, atTarget, declared⟩

theorem consistent_ofRoster (roster : Roster) : (ofRoster roster).Consistent := by
  apply Consistent.of_tabulated
  case tabulated => exact overriders_ofRoster roster
  case source_lt =>
    intro source target edge
    rcases overrides_ofRoster_iff.mp edge with ⟨_, _, atSource, _⟩
    exact (List.getElem?_eq_some_iff.mp atSource).1
  case target_lt =>
    intro source target edge
    rcases overrides_ofRoster_iff.mp edge with ⟨_, _, _, atTarget, _⟩
    exact (List.getElem?_eq_some_iff.mp atTarget).1
  case successors_nodup =>
    intro index
    rw [successors_ofRoster]
    cases roster.elements[index]? with
    | none => exact List.nodup_nil
    | some descriptor => exact targets_nodup roster descriptor

/-- The journal aside, building a graph is tabulating it. -/
theorem value_build (roster : Roster) : (build roster).value = ofRoster roster := rfl

end Overlay.OverrideGraph
