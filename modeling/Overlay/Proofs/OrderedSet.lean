import Mathlib.Data.List.Forall2
import Mathlib.Data.List.Nodup
import Overlay.OrderedMap

/-!
# What a set holds

Keys of an ordered set are distinct, so an element is determined by its key and a
key by its place.  Building a set from a list keeps the first element with each
key; `firsts` says so without a set, and the two agree.
-/

namespace Overlay

variable {κ α β : Type} {key : α → κ}

namespace OrderedSet

theorem eq_of_elements {first second : OrderedSet key}
    (same : first.elements = second.elements) : first = second := by
  cases first
  cases second
  cases same
  rfl

/-- Two places hold elements with one key only if they are the same place. -/
theorem place_unique (set : OrderedSet key) {left right : Nat} {first second : α}
    (atLeft : set.elements[left]? = some first) (atRight : set.elements[right]? = some second)
    (same : key first = key second) : left = right := by
  have leftBound := (List.getElem?_eq_some_iff.mp atLeft).1
  apply (List.getElem?_inj (by simpa using leftBound) set.distinct).mp
  simp only [List.getElem?_map, atLeft, atRight, Option.map_some, same]

end OrderedSet

theorem map_eq_of_forall₂ {γ : Type} {image : α → γ} {other : β → γ} {lefts : List α}
    {rights : List β}
    (each : List.Forall₂ (fun left right => image left = other right) lefts rights) :
    lefts.map image = rights.map other := by
  rw [← List.forall₂_eq_eq_eq, List.forall₂_map_left_iff, List.forall₂_map_right_iff]
  exact each

variable [DecidableEq κ]

/-- The first element with each key, in order of first appearance. -/
def firsts (key : α → κ) : List α → List α
  | [] => []
  | first :: rest => first :: (firsts key rest).filter fun later => key later ≠ key first

/-- An element is kept exactly if looking up its key finds it. -/
theorem mem_firsts_iff {element : α} {elements : List α} :
    element ∈ firsts key elements ↔
      elements.find? (fun candidate => key candidate = key element) = some element := by
  induction elements with
  | nil => simp [firsts]
  | cons first rest ih =>
      rw [firsts, List.mem_cons, List.mem_filter, ih, List.find?_cons]
      by_cases same : key first = key element
      · simp [same, eq_comm]
      · have different : element ≠ first := fun equal => same (equal ▸ rfl)
        simp [same, different, Ne.symm same]

theorem firsts_sublist (key : α → κ) (elements : List α) :
    (firsts key elements).Sublist elements := by
  induction elements with
  | nil => exact .slnil
  | cons first rest ih => exact (List.filter_sublist.trans ih).cons_cons first

theorem nodup_map_firsts (key : α → κ) (elements : List α) :
    ((firsts key elements).map key).Nodup := by
  induction elements with
  | nil => exact List.nodup_nil
  | cons first rest ih =>
      rw [firsts, List.map_cons, List.nodup_cons]
      constructor
      · intro repeated
        rcases List.mem_map.mp repeated with ⟨later, member, same⟩
        exact of_decide_eq_true (List.mem_filter.mp member).2 same
      · exact ih.sublist (List.filter_sublist.map key)

/-- Without repetitions nothing is dropped. -/
theorem firsts_eq_self {elements : List α} (distinct : (elements.map key).Nodup) :
    firsts key elements = elements := by
  induction elements with
  | nil => rfl
  | cons first rest ih =>
      rw [List.map_cons, List.nodup_cons] at distinct
      rw [firsts, ih distinct.2, List.filter_eq_self.mpr]
      intro later member
      exact decide_eq_true fun same => distinct.1 (List.mem_map.mpr ⟨later, member, same⟩)

/-- Without repetitions, elements stand in the order in which they first appeared. -/
theorem firsts_pairwise_idxOf (elements : List κ) :
    (firsts id elements).Pairwise fun first second =>
      elements.idxOf first < elements.idxOf second := by
  induction elements with
  | nil => exact .nil
  | cons head rest ih =>
      have behind : ∀ later ∈ (firsts id rest).filter fun later => id later ≠ id head,
          (head :: rest).idxOf later = rest.idxOf later + 1 := by
        intro later member
        have different := of_decide_eq_true (List.mem_filter.mp member).2
        exact List.idxOf_cons_ne rest (Ne.symm different)
      rw [firsts, List.pairwise_cons]
      constructor
      · intro later member
        rw [List.idxOf_cons_self, behind later member]
        exact Nat.succ_pos _
      · apply (ih.filter _).imp_of_mem
        intro first second firstMember secondMember before
        rw [behind first firstMember, behind second secondMember]
        exact Nat.succ_lt_succ before

/-- Dropping repetitions commutes with a map that keeps the keys. -/
theorem firsts_map (key : β → κ) (image : α → β) (elements : List α) :
    firsts key (elements.map image) =
      (firsts (fun element => key (image element)) elements).map image := by
  induction elements with
  | nil => rfl
  | cons first rest ih =>
      rw [List.map_cons, firsts, firsts, ih, List.map_cons, List.filter_map]
      rfl

/-- Dropping repetitions commutes with keeping some keys only. -/
theorem filter_firsts (key : α → κ) (keep : κ → Bool) (elements : List α) :
    (firsts key elements).filter (fun element => keep (key element)) =
      firsts key (elements.filter fun element => keep (key element)) := by
  induction elements with
  | nil => rfl
  | cons first rest ih =>
      rw [firsts, List.filter_cons, List.filter_cons]
      cases kept : keep (key first) with
      | true =>
          simp only [if_true, firsts]
          rw [← ih, List.filter_filter, List.filter_filter]
          simp only [Bool.and_comm]
      | false =>
          simp only [Bool.false_eq_true, if_false]
          rw [← ih, List.filter_filter]
          apply List.filter_congr
          intro later _
          by_cases same : key later = key first <;> simp [same, kept]

/-- Keys may be renamed, as long as different keys stay different. -/
theorem firsts_of_injective {ρ : Type} [DecidableEq ρ] {rename : κ → ρ}
    (injective : ∀ left right, rename left = rename right → left = right) (elements : List α) :
    firsts (fun element => rename (key element)) elements = firsts key elements := by
  induction elements with
  | nil => rfl
  | cons first rest ih =>
      rw [firsts, firsts, ih]
      congr 1
      apply List.filter_congr
      intro later _
      refine decide_eq_decide.mpr (not_congr ⟨injective _ _, congrArg rename⟩)

/-- The first element with a key is still found when repetitions are dropped. -/
theorem find?_firsts (wanted : κ) (elements : List α) :
    (firsts key elements).find? (fun element => key element = wanted) =
      elements.find? fun element => key element = wanted := by
  induction elements with
  | nil => rfl
  | cons first rest ih =>
      rw [firsts, List.find?_cons, List.find?_cons]
      by_cases same : key first = wanted
      · simp [same]
      · simp only [same, decide_false, List.find?_filter]
        rw [← ih]
        congr 1
        funext later
        by_cases found : key later = wanted
        · simp [found, Ne.symm same]
        · simp [found]

/-- An element whose key stands before it makes no difference. -/
theorem firsts_append_cons_of_mem {earlier : List α} {repeated : α}
    (known : key repeated ∈ earlier.map key) (later : List α) :
    firsts key (earlier ++ repeated :: later) = firsts key (earlier ++ later) := by
  induction earlier with
  | nil => exact (List.not_mem_nil known).elim
  | cons first rest ih =>
      rw [List.cons_append, List.cons_append, firsts, firsts]
      congr 1
      rcases List.mem_cons.mp known with same | member
      · rw [filter_firsts key (· ≠ key first), filter_firsts key (· ≠ key first),
          List.filter_append, List.filter_append, List.filter_cons_of_neg (by simpa using same)]
      · rw [ih member]

/-- Lists that are related element by element, with equal keys, stay so without repetitions. -/
theorem forall₂_firsts {related : α → β → Prop} {other : β → κ}
    (same : ∀ {left right}, related left right → key left = other right)
    {lefts : List α} {rights : List β} (each : List.Forall₂ related lefts rights) :
    List.Forall₂ related (firsts key lefts) (firsts other rights) := by
  induction each with
  | nil => exact .nil
  | cons head _ ih =>
      refine .cons head (List.rel_filter ?_ ih)
      intro left right later
      simp only [same head, same later]

theorem find?_key_eq_none_iff {elements : List α} {wanted : κ} :
    elements.find? (fun element => key element = wanted) = none ↔
      wanted ∉ elements.map key := by
  simp

/-- Dropping repetitions drops no key. -/
theorem mem_map_firsts_iff {wanted : κ} {elements : List α} :
    wanted ∈ (firsts key elements).map key ↔ wanted ∈ elements.map key := by
  rw [← not_iff_not, ← find?_key_eq_none_iff, ← find?_key_eq_none_iff, find?_firsts]

/-- With distinct keys, looking up a key finds the one element that has it. -/
theorem find?_key_eq_some_iff {elements : List α} (distinct : (elements.map key).Nodup)
    {wanted : κ} {element : α} :
    elements.find? (fun candidate => key candidate = wanted) = some element ↔
      element ∈ elements ∧ key element = wanted := by
  constructor
  · intro found
    have holds := List.find?_some found
    exact ⟨List.mem_of_find?_eq_some found, of_decide_eq_true holds⟩
  · intro both
    rcases both with ⟨member, same⟩
    cases found : elements.find? (fun candidate => key candidate = wanted) with
    | none =>
        have absent := List.find?_eq_none.mp found element member
        exact (absent (decide_eq_true same)).elim
    | some other =>
        have holds := List.find?_some found
        rw [List.inj_on_of_nodup_map distinct (List.mem_of_find?_eq_some found) member
          ((of_decide_eq_true holds).trans same.symm)]

/-- Looking up a key does not depend on the order of elements with distinct keys. -/
theorem find?_key_of_perm {left right : List α} (perm : left.Perm right)
    (distinct : (left.map key).Nodup) (wanted : κ) :
    left.find? (fun candidate => key candidate = wanted) =
      right.find? fun candidate => key candidate = wanted := by
  have rightDistinct := (perm.map key).nodup_iff.mp distinct
  apply Option.ext
  intro element
  rw [find?_key_eq_some_iff distinct, find?_key_eq_some_iff rightDistinct, perm.mem_iff]

namespace OrderedSet

theorem find?_eq_some_iff (set : OrderedSet key) {wanted : κ} {element : α} :
    set.find? wanted = some element ↔ element ∈ set.elements ∧ key element = wanted :=
  find?_key_eq_some_iff set.distinct

theorem index?_eq_some_iff (set : OrderedSet key) {wanted : κ} {place : Nat} :
    set.index? wanted = some place ↔
      ∃ element, set.elements[place]? = some element ∧ key element = wanted := by
  constructor
  · intro found
    rcases List.findIdx?_eq_some_iff_getElem.mp found with ⟨bound, holds, _⟩
    exact ⟨set.elements[place], List.getElem?_eq_getElem bound, of_decide_eq_true holds⟩
  · intro listed
    rcases listed with ⟨element, atPlace, rfl⟩
    cases found : set.index? (key element) with
    | none =>
        have absent := List.findIdx?_eq_none_iff.mp found element
          (List.mem_of_getElem? atPlace)
        exact (of_decide_eq_false absent rfl).elim
    | some other =>
        rcases List.findIdx?_eq_some_iff_getElem.mp found with ⟨bound, holds, _⟩
        rw [set.place_unique (List.getElem?_eq_getElem bound) atPlace (of_decide_eq_true holds)]

/-- Where a key stands depends on the keys only. -/
theorem index?_eq_findIdx? (set : OrderedSet key) (wanted : κ) :
    set.index? wanted = (set.elements.map key).findIdx? fun other => other = wanted := by
  rw [index?, List.findIdx?_map]
  rfl

theorem index?_eq_none_iff (set : OrderedSet key) {wanted : κ} :
    set.index? wanted = none ↔ wanted ∉ set.elements.map key := by
  simp [index?]

/-- Inserting elements keeps what is there and appends the first element with each
new key. -/
theorem elements_extend (set : OrderedSet key) (elements : List α) :
    (set.extend elements).elements =
      set.elements ++
        (firsts key elements).filter fun element => key element ∉ set.elements.map key := by
  induction elements generalizing set with
  | nil => exact (List.append_nil _).symm
  | cons first rest ih =>
      have stepped : (set.extend (first :: rest)) = (set.insert first).extend rest := rfl
      rw [stepped, ih, firsts, List.filter_cons, List.filter_filter]
      by_cases present : key first ∈ set.elements.map key
      · have unchanged : set.insert first = set := dif_pos present
        rw [unchanged, if_neg (by simpa using present)]
        congr 1
        apply List.filter_congr
        intro later _
        by_cases same : key later = key first
        · simp only [same, present, not_true, decide_false, Bool.false_and]
        · simp only [same, ne_eq, not_false_iff, decide_true, Bool.and_true]
      · have appended : (set.insert first).elements = set.elements ++ [first] := by
          rw [insert, dif_neg present]
        rw [appended, if_pos (by simpa using present), List.append_assoc, List.singleton_append]
        congr 2
        apply List.filter_congr
        intro later _
        by_cases same : key later = key first <;> simp [same]

/-- A set has the keys that it had and those of the elements inserted. -/
theorem mem_keys_extend (set : OrderedSet key) (elements : List α) (wanted : κ) :
    wanted ∈ (set.extend elements).elements.map key ↔
      wanted ∈ set.elements.map key ∨ wanted ∈ elements.map key := by
  induction elements generalizing set with
  | nil => simp [extend]
  | cons first rest ih =>
      have stepped : set.extend (first :: rest) = (set.insert first).extend rest := rfl
      rw [stepped, ih, List.map_cons, List.mem_cons, ← or_assoc]
      apply or_congr_left
      rw [insert]
      split
      · next present => exact ⟨.inl, fun known => known.elim id fun same => same ▸ present⟩
      · rw [List.map_append, List.mem_append, List.map_singleton, List.mem_singleton]

/-- A set built from a list holds the first element with each key. -/
theorem elements_ofList (key : α → κ) (elements : List α) :
    (ofList elements : OrderedSet key).elements = firsts key elements := by
  rw [ofList, elements_extend]
  exact List.filter_eq_self.mpr fun element _ => by simp [empty]

theorem ofList_append (earlier later : List α) :
    (ofList (earlier ++ later) : OrderedSet key) = (ofList earlier).extend later :=
  List.foldl_append

/-- Looking up a key finds the first element inserted with it. -/
theorem find?_ofList (elements : List α) (wanted : κ) :
    (ofList elements : OrderedSet key).find? wanted =
      elements.find? fun element => key element = wanted := by
  rw [find?, elements_ofList, find?_firsts]

end OrderedSet

/-- What follows other elements is kept if its key is new among them as well. -/
theorem firsts_append (earlier later : List α) :
    firsts key (earlier ++ later) =
      firsts key earlier ++
        (firsts key later).filter fun element => key element ∉ earlier.map key := by
  rw [← OrderedSet.elements_ofList, OrderedSet.ofList_append, OrderedSet.elements_extend,
    OrderedSet.elements_ofList]
  congr 1
  apply List.filter_congr
  intro element _
  have known := OrderedSet.mem_keys_extend (OrderedSet.empty : OrderedSet key) earlier
    (key element)
  rw [← OrderedSet.ofList, OrderedSet.elements_ofList] at known
  simp [known, OrderedSet.empty]

/-- Elements whose key stands before them may be dropped in advance. -/
theorem firsts_append_firsts (elements later : List α) :
    firsts key (firsts key elements ++ later) = firsts key (elements ++ later) := by
  rw [firsts_append, firsts_append, firsts_eq_self (nodup_map_firsts key elements)]
  congr 1
  apply List.filter_congr
  intro element _
  rw [decide_eq_decide, mem_map_firsts_iff]

/-- One more element is kept if its key is new. -/
theorem firsts_concat (earlier : List α) (last : α) :
    firsts key (earlier ++ [last]) =
      if key last ∈ earlier.map key then firsts key earlier else firsts key earlier ++ [last] := by
  have alone : firsts key [last] = [last] := rfl
  rw [firsts_append, alone, List.filter_singleton]
  split
  · next known => simp only [known, not_true, decide_false, cond_false, List.append_nil]
  · next unknown => simp only [unknown, not_false_iff, decide_true, cond_true]

end Overlay
