import Mathlib.Algebra.GroupWithZero.Nat
import Overlay.Proofs.Retention
import Overlay.Proofs.Graph.SingleOverride

/-!
# What the tables of a graph record

Both tables of a graph are filled in one pass over the declared overrides, so they record
the same edges from either end.  `Records` says what they hold, in which order, and how much
of it, by the declarations of the retained contributions alone.  The graph of any
contributions, with modules that override themselves or each other among them, is a record
of them.
-/

namespace Overlay.OverrideGraph

variable {graph : OverrideGraph}

/-- The module at one node declares to override the module at another. -/
def Declares (graph : OverrideGraph) (source target : Nat) : Prop :=
  ∃ overrider found, graph.nodes[source]? = some overrider ∧ graph.nodes[target]? = some found ∧
    found.key ∈ overrider.overrides.elements.map Identity.key

/-- What recognises the module at a node. -/
def key? (graph : OverrideGraph) (index : Nat) : Option Identity.Key :=
  graph.nodes[index]?.map Descriptor.key

/-- What the graph of some contributions records. -/
structure Records (contributions : List Contribution) (graph : OverrideGraph) : Prop where
  /-- There is one node for each identity, in the order of first contribution. -/
  nodes_eq : graph.nodes = (retained contributions).map Descriptor.ofContribution
  keys_nodup : (graph.nodes.map Descriptor.key).Nodup
  mem_keys_iff : ∀ key,
    key ∈ graph.nodes.map Descriptor.key ↔ key ∈ contributions.map Contribution.key
  mem_successors_iff : ∀ source target,
    target ∈ graph.successors source ↔ graph.Declares source target
  mem_incoming_iff : ∀ source target,
    source ∈ graph.incoming target ↔ graph.Declares source target
  /-- Successors stand in the order of declaration. -/
  successors_in_order : ∀ source overrider, graph.nodes[source]? = some overrider →
    (graph.successors source).map graph.key? =
      ((overrider.overrides.elements.map Identity.key).filter fun key =>
        key ∈ graph.nodes.map Descriptor.key).map some
  successors_nodup : ∀ source, (graph.successors source).Nodup
  incoming_ascending : ∀ target, (graph.incoming target).Pairwise (· < ·)
  /-- However the overriders of a node are sorted, nothing changes. -/
  eq_incoming_of_sorted : ∀ target sorted, sorted.Perm (graph.incoming target) →
    sorted.Pairwise (· ≤ ·) → sorted = graph.incoming target
  /-- The check reports overriders just as they are listed. -/
  overriders_reported : ∀ target fault, graph.doubleOverrideAt? target = some fault →
    fault.overriders = (graph.incoming target).map graph.overrider
  /-- Each table has one row for each node, and only nodes are listed in it. -/
  length_overridden : graph.overridden.length = graph.size
  length_overriders : graph.overriders.length = graph.size
  within : ∀ row ∈ graph.overridden ++ graph.overriders, ∀ index ∈ row, index < graph.size
  edgeCount_eq_successors :
    graph.edgeCount = ((List.range graph.size).map fun index =>
      (graph.successors index).length).sum
  edgeCount_eq_incoming :
    graph.edgeCount = ((List.range graph.size).map fun index =>
      (graph.incoming index).length).sum

/-! ## Counting edges -/

/-- Whatever is entered makes one row longer by one. -/
theorem total_enter {rows : List (List Nat)} {entry : Nat × Nat}
    (inRange : entry.1 < rows.length) :
    ((enter rows entry).map List.length).sum = (rows.map List.length).sum + 1 := by
  conv_rhs => rw [← List.take_append_drop entry.1 rows, List.drop_eq_getElem_cons inRange]
  simp only [enter, List.modify_eq_take_cons_drop inRange, List.map_append, List.map_cons,
    List.sum_append, List.sum_cons, List.length_append, List.length_singleton]
  omega

theorem total_foldl_enter (entries : List (Nat × Nat)) (rows : List (List Nat))
    (inRange : ∀ entry ∈ entries, entry.1 < rows.length) :
    ((entries.foldl enter rows).map List.length).sum =
      (rows.map List.length).sum + entries.length := by
  induction entries generalizing rows with
  | nil => simp
  | cons entry rest ih =>
      rw [List.foldl_cons, ih, total_enter (inRange entry List.mem_cons_self), List.length_cons]
      · omega
      · intro other member
        simpa [enter] using inRange other (List.mem_cons_of_mem _ member)

@[simp] theorem size_ofRoster (roster : Roster) : (ofRoster roster).size = roster.size := rfl

theorem length_overridden_ofRoster (roster : Roster) :
    (ofRoster roster).overridden.length = roster.size := by
  simp [overridden_ofRoster, OrderedSet.size]

theorem length_overriders_ofRoster (roster : Roster) :
    (ofRoster roster).overriders.length = roster.size := by
  simp [overriders_ofRoster]

theorem mem_edges_iff {roster : Roster} {edge : Nat × Nat} :
    edge ∈ edges roster ↔ (ofRoster roster).Overrides edge.1 edge.2 := by
  have rows : (ofRoster roster).successors = targetsAt roster := funext (successors_ofRoster roster)
  have listed : edge ∈ edges roster ↔
      edge.1 < roster.size ∧ edge.2 ∈ targetsAt roster edge.1 := by
    cases edge
    simp [edges_eq, edgesOf]
  rw [listed, Overrides, rows]
  apply and_iff_right_of_imp
  intro member
  apply (consistent_ofRoster roster).source_lt
  rw [Overrides, rows]
  exact member

/-- Each table holds as many items as there are edges. -/
theorem total_overridden (roster : Roster) :
    ((ofRoster roster).overridden.map List.length).sum = (edges roster).length := by
  have consistent := consistent_ofRoster roster
  rw [ofRoster, overridden_foldl_add, total_foldl_enter]
  · simp
  · intro edge member
    simpa using consistent.source_lt (mem_edges_iff.mp member)

theorem total_overriders (roster : Roster) :
    ((ofRoster roster).overriders.map List.length).sum = (edges roster).length := by
  have consistent := consistent_ofRoster roster
  rw [ofRoster, overriders_foldl_add, total_foldl_enter]
  · simp
  · intro edge member
    rcases List.mem_map.mp member with ⟨original, listed, rfl⟩
    simpa using consistent.target_lt (mem_edges_iff.mp listed)

/-- The rows of a table, one for each node, hold what the whole table holds. -/
theorem sum_length_rows (rows : List (List Nat)) :
    ((List.range rows.length).map fun index => (rows[index]?.getD []).length).sum =
      (rows.map List.length).sum := by
  congr 1
  apply List.ext_getElem
  · simp
  · simp +contextual

theorem edgeCount_eq_sum_successors (roster : Roster) :
    (ofRoster roster).edgeCount =
      ((List.range (ofRoster roster).size).map fun index =>
        ((ofRoster roster).successors index).length).sum := by
  rw [edgeCount, List.length_flatten, size_ofRoster, ← length_overridden_ofRoster]
  exact (sum_length_rows _).symm

theorem edgeCount_eq_sum_incoming (roster : Roster) :
    (ofRoster roster).edgeCount =
      ((List.range (ofRoster roster).size).map fun index =>
        ((ofRoster roster).incoming index).length).sum := by
  rw [edgeCount, List.length_flatten, total_overridden, ← total_overriders, size_ofRoster,
    ← length_overriders_ofRoster]
  exact (sum_length_rows _).symm

/-- Only nodes are listed in the tables. -/
theorem lt_size_of_stored {roster : Roster} {row : List Nat}
    (member : row ∈ (ofRoster roster).overridden ++ (ofRoster roster).overriders) {index : Nat}
    (stored : index ∈ row) : index < (ofRoster roster).size := by
  rcases List.mem_append.mp member with inFirst | inSecond
  · rw [overridden_ofRoster] at inFirst
    rcases List.mem_map.mp inFirst with ⟨descriptor, _, rfl⟩
    rcases mem_targets_iff.mp stored with ⟨found, atIndex, _⟩
    exact (List.getElem?_eq_some_iff.mp atIndex).1
  · rw [overriders_ofRoster] at inSecond
    rcases List.mem_map.mp inSecond with ⟨target, _, rfl⟩
    exact List.mem_range.mp (List.mem_filter.mp stored).1

/-! ## Order -/

/-- A place on the roster and what recognises the module there name each other. -/
theorem key?_of_index? {roster : Roster} {key : Identity.Key} {index : Nat}
    (placed : roster.index? key = some index) : (ofRoster roster).key? index = some key := by
  rcases roster.index?_eq_some_iff.mp placed with ⟨found, atIndex, same⟩
  have nodes : (ofRoster roster).nodes = roster.elements := rfl
  simp [key?, nodes, atIndex, same]

theorem map_key?_filterMap_index? (roster : Roster) (keys : List Identity.Key) :
    (keys.filterMap roster.index?).map (ofRoster roster).key? =
      (keys.filter fun key => key ∈ roster.elements.map Descriptor.key).map some := by
  induction keys with
  | nil => rfl
  | cons key rest ih =>
      cases placed : roster.index? key with
      | none =>
          have absent := roster.index?_eq_none_iff.mp placed
          rw [List.filterMap_cons_none placed, ih,
            List.filter_cons_of_neg (by simpa using absent)]
      | some index =>
          have present : key ∈ roster.elements.map Descriptor.key := by
            rcases roster.index?_eq_some_iff.mp placed with ⟨found, atIndex, same⟩
            exact same ▸ List.mem_map_of_mem (List.mem_of_getElem? atIndex)
          rw [List.filterMap_cons_some placed, List.filter_cons, decide_eq_true present,
            if_pos rfl, List.map_cons, List.map_cons, ih, key?_of_index? placed]

theorem map_key?_successors {roster : Roster} {source : Nat} {overrider : Descriptor}
    (atSource : roster.elements[source]? = some overrider) :
    ((ofRoster roster).successors source).map (ofRoster roster).key? =
      ((overrider.overrides.elements.map Identity.key).filter fun key =>
        key ∈ roster.elements.map Descriptor.key).map some := by
  rw [successors_ofRoster, atSource, Option.map_some, Option.getD_some, targets_eq,
    map_key?_filterMap_index?]

/-- Of all lists with the same members an ascending one is determined. -/
theorem Consistent.eq_incoming_of_sorted (consistent : graph.Consistent) {target : Nat}
    {sorted : List Nat} (perm : sorted.Perm (graph.incoming target))
    (ascending : sorted.Pairwise (· ≤ ·)) : sorted = graph.incoming target := by
  apply perm.eq_of_pairwise
  · intro left right _ _ below above
    exact Nat.le_antisymm below above
  · exact ascending
  · exact (consistent.incoming_sorted target).imp Nat.le_of_lt

theorem overriders_of_doubleOverrideAt? (consistent : graph.Consistent) {target : Nat}
    {fault : DoubleOverride} (found : graph.doubleOverrideAt? target = some fault) :
    fault.overriders = (graph.incoming target).map graph.overrider := by
  have sorted := consistent.mergeSort_incoming target
  rw [doubleOverrideAt?] at found
  generalize graph.incoming target = incoming at sorted found
  cases incoming with
  | nil => simp at found
  | cons first rest =>
      cases rest with
      | nil => simp at found
      | cons second rest =>
          simp only [sorted, Option.some.injEq] at found
          simp [← found]

/-! ## The graph of some contributions -/

/-- The graph of any contributions records, once from either end, the overrides that the
retained ones declare of each other. -/
theorem build_records (contributions : List Contribution) :
    Records contributions (build (Roster.ofContributions contributions).value).value := by
  rw [value_build]
  generalize known : (Roster.ofContributions contributions).value = roster
  have listed : roster.elements = (retained contributions).map Descriptor.ofContribution := by
    rw [← known, Roster.elements_ofContributions]
  have nodes : (ofRoster roster).nodes = roster.elements := rfl
  have keys : (ofRoster roster).nodes.map Descriptor.key =
      (retained contributions).map Contribution.key := by
    rw [nodes, listed, List.map_map]
    rfl
  have consistent : (ofRoster roster).Consistent := consistent_ofRoster roster
  constructor
  case nodes_eq => exact listed
  case keys_nodup => exact keys ▸ retained_nodup contributions
  case mem_keys_iff =>
    intro key
    rw [keys, retained, mem_map_firsts_iff]
  case mem_successors_iff => exact fun source target => overrides_ofRoster_iff
  case mem_incoming_iff =>
    intro source target
    exact consistent.mem_incoming.trans overrides_ofRoster_iff
  case successors_in_order => exact fun source overrider => map_key?_successors
  case successors_nodup => exact consistent.successors_nodup
  case incoming_ascending => exact consistent.incoming_sorted
  case eq_incoming_of_sorted => exact fun target sorted => consistent.eq_incoming_of_sorted
  case overriders_reported => exact fun target fault => overriders_of_doubleOverrideAt? consistent
  case length_overridden => rw [length_overridden_ofRoster, size_ofRoster]
  case length_overriders => rw [length_overriders_ofRoster, size_ofRoster]
  case within => exact fun row member index stored => lt_size_of_stored member stored
  case edgeCount_eq_successors => exact edgeCount_eq_sum_successors roster
  case edgeCount_eq_incoming => exact edgeCount_eq_sum_incoming roster

end Overlay.OverrideGraph
