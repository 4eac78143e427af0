/-!
# Maps and sets that remember insertion order

Bindings, declared settings, override declarations and the roster of retained
modules are all printed in the order in which their keys first appeared.  Both
containers therefore keep a plain list and carry the proof that its keys are
distinct.  An `OrderedMap` replaces the value of a known key where it stands; an
`OrderedSet` keeps the element it already has.
-/

namespace Overlay

/-- Key and value pairs in the order in which the keys were first inserted. -/
structure OrderedMap (κ α : Type) where
  entries : List (κ × α)
  distinct : (entries.map Prod.fst).Nodup

namespace OrderedMap

variable {κ α β : Type}

/-- The map without entries. -/
def empty : OrderedMap κ α := ⟨[], List.nodup_nil⟩

instance : Inhabited (OrderedMap κ α) := ⟨empty⟩

/-- The keys, in the order of their first insertion. -/
def keys (map : OrderedMap κ α) : List κ := map.entries.map Prod.fst

/-- The number of keys. -/
def size (map : OrderedMap κ α) : Nat := map.entries.length

/-- Whether no key is present. -/
def isEmpty (map : OrderedMap κ α) : Bool := map.entries.isEmpty

variable [DecidableEq κ]

/-- The value of `key` in a list of pairs. -/
def find? (key : κ) : List (κ × α) → Option α
  | [] => none
  | (other, value) :: rest => if other = key then some value else find? key rest

/-- Gives `key` its new value where it stands, or appends the pair. -/
def put (key : κ) (value : α) : List (κ × α) → List (κ × α)
  | [] => [(key, value)]
  | (other, old) :: rest =>
      if other = key then (other, value) :: rest else (other, old) :: put key value rest

/-- A new value moves no key, and a new key comes last. -/
theorem map_fst_put (key : κ) (value : α) (entries : List (κ × α)) :
    (put key value entries).map Prod.fst =
      if key ∈ entries.map Prod.fst then entries.map Prod.fst
      else entries.map Prod.fst ++ [key] := by
  induction entries with
  | nil => simp [put]
  | cons entry rest ih =>
      obtain ⟨other, old⟩ := entry
      by_cases equal : other = key
      · simp [put, equal]
      · by_cases present : key ∈ rest.map Prod.fst
        · simp only [put, equal, if_false, List.map_cons, ih, present, if_true,
            List.mem_cons, or_true]
        · have absent : key ∉ other :: rest.map Prod.fst := by
            simp only [List.mem_cons, not_or]
            exact ⟨fun same => equal same.symm, present⟩
          simp only [put, equal, if_false, List.map_cons, ih, present, absent,
            List.cons_append]

theorem nodup_put (key : κ) (value : α) {entries : List (κ × α)}
    (distinct : (entries.map Prod.fst).Nodup) :
    ((put key value entries).map Prod.fst).Nodup := by
  rw [map_fst_put]
  split
  · exact distinct
  · next absent =>
      rw [List.nodup_append]
      refine ⟨distinct, by simp, ?_⟩
      intro first firstMember second secondMember same
      simp only [List.mem_singleton] at secondMember
      exact absent (secondMember ▸ same ▸ firstMember)

/-- The value of `key`. -/
def get? (map : OrderedMap κ α) (key : κ) : Option α := find? key map.entries

/-- Whether `key` has a value. -/
def contains (map : OrderedMap κ α) (key : κ) : Bool := (map.get? key).isSome

/-- Inserts `key`; a key that is present keeps its place and gets the new value. -/
def insert (map : OrderedMap κ α) (key : κ) (value : α) : OrderedMap κ α :=
  ⟨put key value map.entries, nodup_put key value map.distinct⟩

/-- Inserts pairs one after the other. -/
def extend (map : OrderedMap κ α) (pairs : List (κ × α)) : OrderedMap κ α :=
  pairs.foldl (fun extended pair => extended.insert pair.1 pair.2) map

/-- The map that results from inserting pairs one after the other. -/
def ofList (pairs : List (κ × α)) : OrderedMap κ α := empty.extend pairs

end OrderedMap

/-- Elements that differ in their key, in the order in which the keys first
appeared.  Two elements with one key count as the same element. -/
structure OrderedSet {κ α : Type} (key : α → κ) where
  elements : List α
  distinct : (elements.map key).Nodup

namespace OrderedSet

variable {κ α : Type} {key : α → κ}

/-- The set without elements. -/
def empty : OrderedSet key := ⟨[], List.nodup_nil⟩

instance : Inhabited (OrderedSet key) := ⟨empty⟩

/-- The number of elements. -/
def size (set : OrderedSet key) : Nat := set.elements.length

variable [DecidableEq κ]

/-- The element with the key `wanted`. -/
def find? (set : OrderedSet key) (wanted : κ) : Option α :=
  set.elements.find? fun element => key element = wanted

/-- The place of the element with the key `wanted`. -/
def index? (set : OrderedSet key) (wanted : κ) : Option Nat :=
  set.elements.findIdx? fun element => key element = wanted

/-- Appends an element whose key is new; of two elements with one key the first
stays. -/
def insert (set : OrderedSet key) (element : α) : OrderedSet key :=
  if present : key element ∈ set.elements.map key then set
  else
    { elements := set.elements ++ [element]
      distinct := by
        rw [List.map_append, List.nodup_append]
        refine ⟨set.distinct, by simp, ?_⟩
        intro first firstMember second secondMember same
        simp only [List.map_cons, List.map_nil, List.mem_singleton] at secondMember
        exact present (secondMember ▸ same ▸ firstMember) }

/-- Inserts elements one after the other. -/
def extend (set : OrderedSet key) (elements : List α) : OrderedSet key :=
  elements.foldl insert set

/-- The set that results from inserting elements one after the other. -/
def ofList (elements : List α) : OrderedSet key := empty.extend elements

end OrderedSet

end Overlay
