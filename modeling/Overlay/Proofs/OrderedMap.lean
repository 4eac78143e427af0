import Overlay.Proofs.OrderedSet

/-!
# What a map holds

A map that results from inserting pairs one after the other answers with the last value
inserted for a key.  Its keys are an ordered set, to which the values do not matter, so
they stand in the order in which they were first inserted.
-/

namespace Overlay.OrderedMap

variable {κ α : Type}

theorem nodup_keys (map : OrderedMap κ α) : map.keys.Nodup := map.distinct

/-- A key stands with one value. -/
theorem value_unique (map : OrderedMap κ α) {key : κ} {value other : α}
    (first : (key, value) ∈ map.entries) (second : (key, other) ∈ map.entries) :
    value = other :=
  (Prod.mk.inj (List.inj_on_of_nodup_map map.distinct first second rfl)).2

theorem mem_keys_iff (map : OrderedMap κ α) {key : κ} :
    key ∈ map.keys ↔ ∃ value, (key, value) ∈ map.entries := by
  simp [keys]

variable [DecidableEq κ]

theorem find?_eq_none_iff {key : κ} {pairs : List (κ × α)} :
    find? key pairs = none ↔ key ∉ pairs.map Prod.fst := by
  induction pairs with
  | nil => simp [find?]
  | cons pair rest ih =>
      by_cases same : pair.1 = key
      · simp [find?, same]
      · rw [find?, if_neg same, ih, List.map_cons, List.mem_cons, not_or]
        exact ⟨fun absent => ⟨Ne.symm same, absent⟩, fun both => both.2⟩

theorem mem_of_find? {key : κ} {value : α} {pairs : List (κ × α)}
    (found : find? key pairs = some value) : (key, value) ∈ pairs := by
  induction pairs with
  | nil => cases found
  | cons pair rest ih =>
      rw [find?] at found
      split at found
      · next same =>
          cases found
          exact same ▸ List.mem_cons_self
      · exact List.mem_cons_of_mem _ (ih found)

/-- Where keys are distinct, looking up a key finds the one value that it has. -/
theorem find?_eq_some_iff {key : κ} {value : α} {pairs : List (κ × α)}
    (distinct : (pairs.map Prod.fst).Nodup) :
    find? key pairs = some value ↔ (key, value) ∈ pairs := by
  constructor
  · exact mem_of_find?
  · intro member
    cases found : find? key pairs with
    | none => exact (find?_eq_none_iff.mp found (List.mem_map_of_mem member)).elim
    | some other =>
        have same := List.inj_on_of_nodup_map distinct (mem_of_find? found) member rfl
        rw [(Prod.mk.inj same).2]

/-- Where keys are distinct, it does not matter from which end they are looked up. -/
theorem find?_reverse {pairs : List (κ × α)} (distinct : (pairs.map Prod.fst).Nodup) (key : κ) :
    find? key pairs.reverse = find? key pairs := by
  have reversed : (pairs.reverse.map Prod.fst).Nodup := by
    rw [List.map_reverse, List.nodup_reverse]
    exact distinct
  apply Option.ext
  intro value
  rw [find?_eq_some_iff reversed, find?_eq_some_iff distinct, List.mem_reverse]

theorem find?_append (key : κ) (first second : List (κ × α)) :
    find? key (first ++ second) = (find? key first).or (find? key second) := by
  induction first with
  | nil => rfl
  | cons pair rest ih =>
      rw [List.cons_append, find?, find?, ih]
      split <;> rfl

/-- Looking up a key finds the first pair that has it. -/
theorem find?_eq_some_iff_append {key : κ} {value : α} {pairs : List (κ × α)} :
    find? key pairs = some value ↔
      ∃ earlier later, pairs = earlier ++ (key, value) :: later ∧
        key ∉ earlier.map Prod.fst := by
  constructor
  · intro found
    induction pairs with
    | nil => cases found
    | cons pair rest ih =>
        rw [find?] at found
        split at found
        · next same =>
            cases found
            exact ⟨[], rest, same ▸ rfl, List.not_mem_nil⟩
        · next different =>
            rcases ih found with ⟨earlier, later, rfl, absent⟩
            exact ⟨pair :: earlier, later, rfl,
              List.not_mem_cons_of_ne_of_not_mem (Ne.symm different) absent⟩
  · intro placed
    rcases placed with ⟨earlier, later, rfl, absent⟩
    rw [find?_append, find?_eq_none_iff.mpr absent, Option.none_or, find?, if_pos rfl]

/-- Looking up a key depends on the pairs with this key only. -/
theorem find?_filter_key (key : κ) (pairs : List (κ × α)) :
    find? key (pairs.filter fun pair => pair.1 = key) = find? key pairs := by
  induction pairs with
  | nil => rfl
  | cons pair rest ih =>
      rw [List.filter_cons, find?]
      by_cases same : pair.1 = key
      · rw [if_pos (decide_eq_true same), if_pos same, find?, if_pos same]
      · rw [if_neg (by simpa using same), if_neg same, ih]

/-- Giving a key its value answers for this key and changes no other answer. -/
theorem find?_put (key wanted : κ) (value : α) (entries : List (κ × α)) :
    find? wanted (put key value entries) =
      if key = wanted then some value else find? wanted entries := by
  induction entries with
  | nil => rfl
  | cons entry rest ih =>
      obtain ⟨other, old⟩ := entry
      by_cases replaced : other = key
      · subst replaced
        simp only [put, if_true, find?]
        split <;> rfl
      · by_cases asked : other = wanted
        · subst asked
          simp [put, find?, replaced, Ne.symm replaced]
        · simp only [put, find?, replaced, asked, if_false, ih]

theorem get?_eq_some_iff (map : OrderedMap κ α) {key : κ} {value : α} :
    map.get? key = some value ↔ (key, value) ∈ map.entries :=
  find?_eq_some_iff map.distinct

theorem get?_eq_none_iff (map : OrderedMap κ α) {key : κ} :
    map.get? key = none ↔ key ∉ map.keys :=
  find?_eq_none_iff

theorem contains_eq_true_iff (map : OrderedMap κ α) {key : κ} :
    map.contains key = true ↔ key ∈ map.keys := by
  rw [contains, ← not_iff_not, ← get?_eq_none_iff, Bool.not_eq_true, Option.isSome_eq_false_iff,
    Option.isNone_iff_eq_none]

/-- Two maps hold the same pairs, in whatever order, exactly if they give the same answers. -/
theorem entries_perm_iff {first second : OrderedMap κ α} :
    first.entries.Perm second.entries ↔ ∀ key, first.get? key = second.get? key := by
  rw [List.perm_ext_iff_of_nodup (.of_map _ first.distinct) (.of_map _ second.distinct)]
  constructor
  · intro same key
    apply Option.ext
    intro value
    rw [get?_eq_some_iff, get?_eq_some_iff]
    exact same (key, value)
  · intro same pair
    rw [← get?_eq_some_iff, ← get?_eq_some_iff, same]

theorem get?_insert (map : OrderedMap κ α) (key wanted : κ) (value : α) :
    (map.insert key value).get? wanted = if key = wanted then some value else map.get? wanted :=
  find?_put key wanted value map.entries

/-- Of several values inserted for a key the last counts. -/
theorem get?_extend (map : OrderedMap κ α) (pairs : List (κ × α)) (key : κ) :
    (map.extend pairs).get? key = (find? key pairs.reverse).or (map.get? key) := by
  induction pairs generalizing map with
  | nil => rfl
  | cons pair rest ih =>
      have stepped : map.extend (pair :: rest) = (map.insert pair.1 pair.2).extend rest := rfl
      rw [stepped, ih, get?_insert, List.reverse_cons, find?_append, Option.or_assoc]
      congr 1
      by_cases same : pair.1 = key <;> simp [find?, same]

theorem get?_ofList (pairs : List (κ × α)) (key : κ) :
    (ofList pairs).get? key = find? key pairs.reverse := by
  rw [ofList, get?_extend]
  exact Option.or_none

/-! ## Keys -/

/-- The keys of a map as a set. -/
def keySet (map : OrderedMap κ α) : OrderedSet (id : κ → κ) where
  elements := map.keys
  distinct := by
    rw [List.map_id]
    exact map.distinct

theorem keySet_insert (map : OrderedMap κ α) (key : κ) (value : α) :
    (map.insert key value).keySet = map.keySet.insert key := by
  have keys := map_fst_put key value map.entries
  have same : map.keySet.elements.map id = map.entries.map Prod.fst := List.map_id _
  by_cases present : id key ∈ map.keySet.elements.map id
  · rw [if_pos (same ▸ present)] at keys
    rw [OrderedSet.insert, dif_pos present]
    simp only [keySet, OrderedMap.keys, insert, keys]
  · rw [if_neg (same ▸ present)] at keys
    rw [OrderedSet.insert, dif_neg present]
    simp only [keySet, OrderedMap.keys, insert, keys]

theorem keySet_extend (map : OrderedMap κ α) (pairs : List (κ × α)) :
    (map.extend pairs).keySet = map.keySet.extend (pairs.map Prod.fst) := by
  induction pairs generalizing map with
  | nil => rfl
  | cons pair rest ih =>
      have stepped : map.extend (pair :: rest) = (map.insert pair.1 pair.2).extend rest := rfl
      rw [stepped, ih, keySet_insert]
      rfl

/-- Keys stand in the order of their first insertion. -/
theorem keys_ofList (pairs : List (κ × α)) :
    (ofList pairs).keys = firsts id (pairs.map Prod.fst) := by
  have elements := congrArg OrderedSet.elements (keySet_extend (empty : OrderedMap κ α) pairs)
  exact elements.trans (OrderedSet.elements_ofList id (pairs.map Prod.fst))

/-! ## Merging -/

/-- The entries can be read off the keys and their values. -/
theorem entries_eq_filterMap (map : OrderedMap κ α) :
    map.entries = map.keys.filterMap fun key => (map.get? key).map (key, ·) := by
  rw [keys, List.filterMap_map]
  conv_lhs => rw [← List.filterMap_some (l := map.entries)]
  apply List.filterMap_congr
  intro entry member
  rw [Function.comp, map.get?_eq_some_iff.mpr member]
  rfl

/-- Maps with the same keys in the same order, and the same values, are the same. -/
theorem eq_of_keys_of_get? {first second : OrderedMap κ α} (keys : first.keys = second.keys)
    (values : ∀ key, first.get? key = second.get? key) : first = second := by
  have entries : first.entries = second.entries := by
    rw [entries_eq_filterMap first, entries_eq_filterMap second, keys]
    simp only [values]
  cases first
  cases second
  cases entries
  rfl

theorem keys_extend (map : OrderedMap κ α) (pairs : List (κ × α)) :
    (map.extend pairs).keys =
      map.keys ++ (firsts id (pairs.map Prod.fst)).filter fun key => key ∉ map.keys := by
  have elements := congrArg OrderedSet.elements (keySet_extend map pairs)
  rw [OrderedSet.elements_extend, List.map_id] at elements
  exact elements

theorem extend_append (map : OrderedMap κ α) (first second : List (κ × α)) :
    map.extend (first ++ second) = (map.extend first).extend second :=
  List.foldl_append

/-- Inserting what a map has kept of some pairs is inserting the pairs. -/
theorem extend_entries_ofList (map : OrderedMap κ α) (pairs : List (κ × α)) :
    map.extend (ofList pairs).entries = map.extend pairs := by
  have kept : (ofList pairs).entries.map Prod.fst = firsts id (pairs.map Prod.fst) :=
    keys_ofList pairs
  apply eq_of_keys_of_get?
  · have distinct : ((firsts id (pairs.map Prod.fst)).map id).Nodup := nodup_map_firsts id _
    rw [keys_extend, keys_extend, kept, firsts_eq_self distinct]
  · intro key
    rw [get?_extend, get?_extend, find?_reverse (ofList pairs).distinct]
    congr 1
    exact get?_ofList pairs key

/-- A map is what results from inserting its entries. -/
theorem ofList_entries (map : OrderedMap κ α) : ofList map.entries = map := by
  apply eq_of_keys_of_get?
  · have distinct : (map.keys.map id).Nodup := (List.map_id map.keys).symm ▸ map.distinct
    rw [keys_ofList, ← keys, firsts_eq_self distinct]
  · intro key
    rw [get?_ofList, find?_reverse map.distinct, get?]

/-- Pairs with different keys are kept as they are. -/
theorem entries_ofList {pairs : List (κ × α)} (distinct : (pairs.map Prod.fst).Nodup) :
    (ofList pairs).entries = pairs :=
  congrArg entries (ofList_entries ⟨pairs, distinct⟩)

/-- Inserting what several maps have kept is inserting everything that went into them. -/
theorem extend_flatMap_entries_ofList (map : OrderedMap κ α) (parts : List (List (κ × α))) :
    map.extend (parts.flatMap fun pairs => (ofList pairs).entries) =
      map.extend parts.flatten := by
  induction parts generalizing map with
  | nil => rfl
  | cons pairs rest ih =>
      rw [List.flatMap_cons, List.flatten_cons, extend_append, extend_append,
        extend_entries_ofList, ih]

end Overlay.OrderedMap
