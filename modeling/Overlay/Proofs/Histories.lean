import Mathlib.Data.Finset.Card
import Mathlib.Data.List.Perm.Subperm
import Overlay.Binder
import Overlay.Proofs.OrderedMap

/-!
# Histories of a binder

What a binder holds can be read off the calls that bound it.  A key has its place from the
first call for it and its value from the last one, so place and value come from different
moments of the history.  Calls for different keys may change places without any effect but
on the order of the keys, and a part of the history may be replaced by what it leaves behind.
-/

namespace Overlay

namespace Value

mutual

theorem same_refl (value : Value) : value.same value = true := by
  match value with
  | .null | .bool _ | .int _ | .float _ | .text _ => simp [same]
  | .list items => rw [same, sameItems_refl items]
  | .table fields => rw [same, sameFields_refl fields]

theorem sameItems_refl (items : List Value) : sameItems items items = true := by
  match items with
  | [] => rw [sameItems]
  | item :: rest => simp [sameItems, same_refl item, sameItems_refl rest]

theorem sameFields_refl (fields : List (String × Value)) : sameFields fields fields = true := by
  match fields with
  | [] => rw [sameFields]
  | (name, value) :: rest => simp [sameFields, same_refl value, sameFields_refl rest]

end

end Value

namespace Binder

/-- Binds pairs one after the other. -/
def bindAll (binder : Binder) (calls : List (String × Value)) : Binder :=
  calls.foldl (fun bound call => bound.bind call.1 call.2) binder

theorem bindAll_eq_extend (binder : Binder) (calls : List (String × Value)) :
    binder.bindAll calls = binder.extend calls := rfl

theorem bindAll_empty (calls : List (String × Value)) :
    bindAll .empty calls = .ofList calls := rfl

theorem getText?_eq_some_iff {binder : Binder} {key text : String} :
    binder.getText? key = some text ↔ (key, .text text) ∈ binder.entries := by
  rw [← binder.get?_eq_some_iff, getText?]
  cases binder.get? key with
  | none => simp
  | some found => cases found <;> simp

/-! ## Calls for a key -/

/-- The moment of the first call for the key. -/
def firstCall (calls : List (String × Value)) (key : String) : Nat :=
  (calls.map Prod.fst).idxOf key

/-- The last call for the key binds this value. -/
def EndsWith (calls : List (String × Value)) (key : String) (value : Value) : Prop :=
  ∃ earlier later, calls = earlier ++ (key, value) :: later ∧ key ∉ later.map Prod.fst

/-- The calls for each key are the same, in the same order; how calls for different keys
follow each other is left open. -/
def Rearranged (calls others : List (String × Value)) : Prop :=
  ∀ key, calls.filter (fun call => call.1 = key) = others.filter fun call => call.1 = key

section Calls

variable {calls others : List (String × Value)} {key : String} {value : Value}

theorem find?_reverse_eq_some_iff :
    OrderedMap.find? key calls.reverse = some value ↔ EndsWith calls key value := by
  rw [OrderedMap.find?_eq_some_iff_append]
  constructor
  · intro placed
    rcases placed with ⟨later, earlier, split, silent⟩
    refine ⟨earlier.reverse, later.reverse, ?_, ?_⟩
    · rw [← List.reverse_reverse calls, split]
      simp
    · rwa [List.map_reverse, List.mem_reverse]
  · intro ends
    rcases ends with ⟨earlier, later, rfl, silent⟩
    refine ⟨later.reverse, earlier.reverse, ?_, ?_⟩
    · simp
    · rwa [List.map_reverse, List.mem_reverse]

theorem get?_bindAll_eq_some_iff :
    (bindAll .empty calls).get? key = some value ↔ EndsWith calls key value := by
  rw [bindAll_empty, OrderedMap.get?_ofList, find?_reverse_eq_some_iff]

theorem keys_bindAll (calls : List (String × Value)) :
    (bindAll .empty calls).keys = firsts id (calls.map Prod.fst) := by
  rw [bindAll_empty, OrderedMap.keys_ofList]

theorem mem_keys_bindAll :
    key ∈ (bindAll .empty calls).keys ↔ key ∈ calls.map Prod.fst := by
  have kept : key ∈ (firsts id (calls.map Prod.fst)).map id ↔
      key ∈ (calls.map Prod.fst).map id := mem_map_firsts_iff
  rwa [List.map_id, List.map_id, ← keys_bindAll] at kept

theorem size_bindAll (calls : List (String × Value)) :
    (bindAll .empty calls).size = (calls.map Prod.fst).toFinset.card := by
  have same : (bindAll .empty calls).keys.toFinset = (calls.map Prod.fst).toFinset := by
    ext key
    rw [List.mem_toFinset, List.mem_toFinset, mem_keys_bindAll]
  rw [← same, List.toFinset_card_of_nodup (OrderedMap.nodup_keys _), OrderedMap.keys,
    List.length_map, OrderedMap.size]

theorem isEmpty_bindAll_iff : (bindAll .empty calls).isEmpty = true ↔ calls = [] := by
  rw [OrderedMap.isEmpty, List.isEmpty_iff, ← List.map_eq_nil_iff, ← OrderedMap.keys,
    keys_bindAll]
  cases calls <;> simp [firsts]

/-- Which calls there are for other keys, and when, does not matter to the value of a key. -/
theorem get?_of_rearranged (rearranged : Rearranged calls others) (key : String) :
    (bindAll .empty calls).get? key = (bindAll .empty others).get? key := by
  rw [bindAll_empty, bindAll_empty, OrderedMap.get?_ofList, OrderedMap.get?_ofList,
    ← OrderedMap.find?_filter_key, ← OrderedMap.find?_filter_key key others.reverse,
    List.filter_reverse, List.filter_reverse, rearranged key]

end Calls

/-! ## Comparing binders -/

section Comparing

variable {left right : Binder}

/-- Comparison looks up what the first binder lists. -/
theorem same_eq_true_iff_listed :
    left.same right = true ↔ left.size = right.size ∧
      ∀ key value, (key, value) ∈ left.entries →
        ∃ other, (key, other) ∈ right.entries ∧ value.same other = true := by
  rw [same, Bool.and_eq_true, beq_iff_eq, List.all_eq_true]
  apply and_congr_right
  intro _
  constructor
  · intro each key value member
    have holds := each (key, value) member
    cases answer : right.get? key with
    | none => simp [answer] at holds
    | some other =>
        simp only [answer] at holds
        exact ⟨other, right.get?_eq_some_iff.mp answer, holds⟩
  · intro each pair member
    rcases each pair.1 pair.2 member with ⟨other, listed, holds⟩
    simp only [right.get?_eq_some_iff.mpr listed]
    exact holds

/-- Binders are the same if they bind the same keys, each to values that are the same.  That
no key is bound by the second one only follows from the sizes. -/
theorem same_eq_true_iff :
    left.same right = true ↔
      (∀ key, key ∈ left.keys ↔ key ∈ right.keys) ∧
      ∀ key value other, (key, value) ∈ left.entries → (key, other) ∈ right.entries →
        value.same other = true := by
  rw [same_eq_true_iff_listed]
  constructor
  · intro agree
    rcases agree with ⟨size, each⟩
    have subset : left.keys ⊆ right.keys := by
      intro key member
      rcases left.mem_keys_iff.mp member with ⟨value, listed⟩
      rcases each key value listed with ⟨other, there, _⟩
      exact right.mem_keys_iff.mpr ⟨other, there⟩
    have lengths : right.keys.length ≤ left.keys.length := by
      rw [OrderedMap.keys, OrderedMap.keys, List.length_map, List.length_map]
      exact size.ge
    have perm := (List.subperm_of_subset left.distinct subset).perm_of_length_le lengths
    refine ⟨fun key => perm.mem_iff, ?_⟩
    intro key value other member there
    rcases each key value member with ⟨found, listed, holds⟩
    exact right.value_unique listed there ▸ holds
  · intro agree
    rcases agree with ⟨keys, values⟩
    constructor
    · have perm := (List.perm_ext_iff_of_nodup left.distinct right.distinct).mpr keys
      simpa [OrderedMap.size] using perm.length_eq
    · intro key value member
      have known := (keys key).mp (left.mem_keys_iff.mpr ⟨value, member⟩)
      rcases right.mem_keys_iff.mp known with ⟨other, there⟩
      exact ⟨other, there, values key value other member there⟩

/-- Binders that hold the same pairs are the same, in whatever order they hold them. -/
theorem same_of_perm (perm : left.entries.Perm right.entries) : left.same right = true := by
  rw [same_eq_true_iff]
  refine ⟨fun key => (perm.map Prod.fst).mem_iff, ?_⟩
  intro key value other member there
  exact right.value_unique (perm.mem_iff.mp member) there ▸ value.same_refl

end Comparing

/-! ## What a history leaves behind -/

/-- What a binder is that was empty before the calls. -/
structure LastWriteWins (calls : List (String × Value)) (binder : Binder) : Prop where
  /-- A key is listed once if there is a call for it, and else not at all. -/
  listed_once : ∀ key, binder.keys.count key = if key ∈ calls.map Prod.fst then 1 else 0
  /-- Keys stand in the order of their first calls. -/
  in_order : binder.keys.Pairwise fun first second =>
    firstCall calls first < firstCall calls second
  /-- A key stands with the value of its last call. -/
  last_value : ∀ key value, (key, value) ∈ binder.entries ↔ EndsWith calls key value
  get?_eq_some_iff : ∀ key value,
    binder.get? key = some value ↔ (key, value) ∈ binder.entries
  get?_eq_none_iff : ∀ key, binder.get? key = none ↔ ∀ value, (key, value) ∉ binder.entries
  getText?_eq_some_iff : ∀ key text,
    binder.getText? key = some text ↔ (key, .text text) ∈ binder.entries
  contains_iff : ∀ key, binder.contains key = true ↔ ∃ value, (key, value) ∈ binder.entries
  size_eq_length : binder.size = binder.entries.length
  /-- There are as many entries as there are keys among the calls. -/
  size_eq_card : binder.size = (calls.map Prod.fst).toFinset.card
  isEmpty_iff_entries : binder.isEmpty = true ↔ binder.entries = []
  isEmpty_iff_calls : binder.isEmpty = true ↔ calls = []
  /-- Comparison does not look at the order of keys. -/
  same_iff : ∀ other : Binder, binder.same other = true ↔
    (∀ key, key ∈ binder.keys ↔ key ∈ other.keys) ∧
    ∀ key value otherValue, (key, value) ∈ binder.entries → (key, otherValue) ∈ other.entries →
      value.same otherValue = true
  /-- Two histories leave behind the same pairs, in whatever order, if their last calls agree. -/
  perm_iff : ∀ others, (bindAll .empty others).entries.Perm binder.entries ↔
    ∀ key value, EndsWith others key value ↔ EndsWith calls key value
  /-- When keys are bound in another order, only the order of the entries may change. -/
  rearranged : ∀ others, Rearranged others calls →
    (bindAll .empty others).entries.Perm binder.entries ∧
      (bindAll .empty others).same binder = true
  /-- Instead of a later part of the history, what this part leaves behind may be bound. -/
  replayed : ∀ earlier later, calls = earlier ++ later →
    (bindAll .empty earlier).bindAll (bindAll .empty later).entries = binder

/-- Whatever the calls, they leave behind a map in which the last call for a key wins and
the first one gives the key its place. -/
theorem bindAll_lastWriteWins (calls : List (String × Value)) :
    LastWriteWins calls (bindAll .empty calls) := by
  constructor
  case listed_once =>
    intro key
    rw [List.Nodup.count (OrderedMap.nodup_keys _)]
    simp only [mem_keys_bindAll]
  case in_order =>
    rw [keys_bindAll]
    exact firsts_pairwise_idxOf _
  case last_value =>
    intro key value
    rw [← OrderedMap.get?_eq_some_iff, get?_bindAll_eq_some_iff]
  case get?_eq_some_iff => exact fun key value => OrderedMap.get?_eq_some_iff _
  case get?_eq_none_iff =>
    intro key
    rw [OrderedMap.get?_eq_none_iff, OrderedMap.mem_keys_iff, not_exists]
  case getText?_eq_some_iff => exact fun key text => getText?_eq_some_iff
  case contains_iff =>
    intro key
    rw [OrderedMap.contains_eq_true_iff, OrderedMap.mem_keys_iff]
  case size_eq_length => rfl
  case size_eq_card => exact size_bindAll calls
  case isEmpty_iff_entries => exact List.isEmpty_iff
  case isEmpty_iff_calls => exact isEmpty_bindAll_iff
  case same_iff => exact fun other => same_eq_true_iff
  case perm_iff =>
    intro others
    rw [OrderedMap.entries_perm_iff]
    constructor
    · intro same key value
      rw [← get?_bindAll_eq_some_iff, ← get?_bindAll_eq_some_iff, same]
    · intro same key
      apply Option.ext
      intro value
      rw [get?_bindAll_eq_some_iff, get?_bindAll_eq_some_iff, same]
  case rearranged =>
    intro others rearranged
    have perm := OrderedMap.entries_perm_iff.mpr (get?_of_rearranged rearranged)
    exact ⟨perm, same_of_perm perm⟩
  case replayed =>
    intro earlier later split
    rw [bindAll_eq_extend, bindAll_empty later, OrderedMap.extend_entries_ofList, split]
    exact (OrderedMap.extend_append _ _ _).symm

/-- A key that is bound again gets the new value where it stands. -/
example :
    (bindAll .empty
        [("logger", .text "text"), ("pool", .int 4), ("logger", .text "json")]).entries =
      [("logger", .text "json"), ("pool", .int 4)] := rfl

end Binder

end Overlay
