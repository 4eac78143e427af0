import Mathlib.Data.String.Basic
import Overlay.FileTree
import Overlay.Text.Blank

/-!
# Texts cut at separators

A text that was joined with a separator is cut into the parts that it was joined from, as long
as none of them has the first character of the separator.  The search for separators goes through
a part without finding where one begins, then goes through the separator, and cuts behind it.
-/

namespace Overlay

namespace Splitting

open String

/-! ## Places in a text -/

section Places

variable {text : String} {before after : List Char}

theorem get_eq (split : text.toList = before ++ after) :
    Pos.Raw.get text ⟨utf8Len before⟩ = after.headD default := by
  rw [← text.ofList_toList, split, get_of_valid]

theorem atEnd_iff (split : text.toList = before ++ after) :
    Pos.Raw.atEnd text ⟨utf8Len before⟩ = true ↔ after = [] := by
  rw [← text.ofList_toList, split, atEnd_of_valid]

theorem next_eq {char : Char} (split : text.toList = before ++ char :: after) :
    Pos.Raw.next text ⟨utf8Len before⟩ = ⟨utf8Len (before ++ [char])⟩ := by
  rw [← text.ofList_toList, split, next_of_valid, utf8Len_append]
  simp

theorem extract_eq {middle : List Char} (split : text.toList = before ++ (middle ++ after)) :
    Pos.Raw.extract text ⟨utf8Len before⟩ ⟨utf8Len (before ++ middle)⟩ = ofList middle := by
  rw [← text.ofList_toList, split, ← List.append_assoc, utf8Len_append, extract_of_valid]

end Places

/-! ## The search for separators -/

section Search

variable {text separator : String} {opening : Char} {others before after : List Char}
  {start : Pos.Raw} {found : List String}

/-- The search goes past characters with which the separator does not begin. -/
theorem splitOnAux_part (opens : separator.toList = opening :: others) {part : List Char}
    (apart : opening ∉ part) (split : text.toList = before ++ (part ++ after)) :
    splitOnAux text separator start ⟨utf8Len before⟩ 0 found =
      splitOnAux text separator start ⟨utf8Len (before ++ part)⟩ 0 found := by
  induction part generalizing before with
  | nil => rw [List.append_nil]
  | cons char rest ih =>
      obtain ⟨different, fresh⟩ : opening ≠ char ∧ opening ∉ rest := by simpa using apart
      have unfinished : ¬ Pos.Raw.atEnd text ⟨utf8Len before⟩ = true :=
        (atEnd_iff split).not.mpr (List.cons_ne_nil _ _)
      have first : Pos.Raw.get separator 0 = opening :=
        get_eq (opens.trans (List.nil_append _).symm)
      have stay : Pos.Raw.unoffsetBy ⟨utf8Len before⟩ 0 = ⟨utf8Len before⟩ := rfl
      have moved : text.toList = (before ++ [char]) ++ (rest ++ after) := by simpa using split
      rw [splitOnAux, if_neg unfinished, get_eq split, first, stay, next_eq split,
        if_neg (by simpa using different.symm), ih fresh moved, List.append_assoc,
        List.singleton_append]

/-- The search goes through a separator and cuts behind it. -/
theorem splitOnAux_separator {known todo : List Char} (spelled : separator.toList = known ++ todo)
    (unfinished : todo ≠ []) (split : text.toList = before ++ (todo ++ after)) :
    splitOnAux text separator start ⟨utf8Len before⟩ ⟨utf8Len known⟩ found =
      splitOnAux text separator ⟨utf8Len (before ++ todo)⟩ ⟨utf8Len (before ++ todo)⟩ 0
        (Pos.Raw.extract text start (Pos.Raw.unoffsetBy ⟨utf8Len (before ++ todo)⟩
          ⟨utf8Len separator.toList⟩) :: found) := by
  induction todo generalizing before known with
  | nil => exact (unfinished rfl).elim
  | cons char rest ih =>
      have unfinished : ¬ Pos.Raw.atEnd text ⟨utf8Len before⟩ = true :=
        (atEnd_iff split).not.mpr (List.cons_ne_nil _ _)
      have spelledOut : separator.toList = (known ++ [char]) ++ rest := by simpa using spelled
      rw [splitOnAux, if_neg unfinished, get_eq split, get_eq spelled, List.cons_append,
        List.headD_cons, List.headD_cons, if_pos (beq_self_eq_true char), next_eq split,
        next_eq spelled]
      dsimp only
      by_cases last : rest = []
      · subst last
        rw [if_pos ((atEnd_iff spelledOut).mpr rfl), spelledOut, List.append_nil]
      · rw [if_neg ((atEnd_iff spelledOut).not.mpr last),
          ih spelledOut last (by simpa using split), List.append_assoc, List.singleton_append]

/-- From the beginning of a part on, the search finds this part and those behind it. -/
theorem splitOnAux_intercalate (opens : separator.toList = opening :: others) {first : String}
    {rest : List String} (apart : ∀ part ∈ first :: rest, opening ∉ part.toList)
    (split : text.toList = before ++ (separator.intercalate (first :: rest)).toList) :
    splitOnAux text separator ⟨utf8Len before⟩ ⟨utf8Len before⟩ 0 found =
      found.reverse ++ first :: rest := by
  induction rest generalizing first before found with
  | nil =>
      have own := apart first List.mem_cons_self
      have parts : text.toList = before ++ (first.toList ++ []) := by simpa using split
      have whole : text.toList = (before ++ first.toList) ++ [] := by simpa using split
      rw [splitOnAux_part opens own parts, splitOnAux, if_pos ((atEnd_iff whole).mpr rfl),
        extract_eq parts, ofList_toList, List.reverse_cons]
  | cons second rest ih =>
      obtain ⟨own, later⟩ := List.forall_mem_cons.mp apart
      have parts : text.toList = before ++ (first.toList ++ (separator.toList ++
          (separator.intercalate (second :: rest)).toList)) := by
        simpa [intercalate_cons_cons] using split
      have behind : text.toList = (before ++ first.toList) ++ (separator.toList ++
          (separator.intercalate (second :: rest)).toList) := by simpa using parts
      have cut : Pos.Raw.unoffsetBy ⟨utf8Len ((before ++ first.toList) ++ separator.toList)⟩
          ⟨utf8Len separator.toList⟩ = ⟨utf8Len (before ++ first.toList)⟩ := by
        rw [utf8Len_append]
        simp [Pos.Raw.unoffsetBy]
      have remaining : text.toList = ((before ++ first.toList) ++ separator.toList) ++
          (separator.intercalate (second :: rest)).toList := by simpa using behind
      have whole : separator.toList = [] ++ separator.toList := rfl
      have some : separator.toList ≠ [] := by simp [opens]
      rw [splitOnAux_part opens own parts]
      refine (splitOnAux_separator whole some behind).trans ?_
      rw [cut, extract_eq parts, ofList_toList, ih later remaining, List.reverse_cons,
        List.append_assoc, List.singleton_append]

end Search

/-- Parts that were joined with a separator are found again, if its first character is in none
of them. -/
theorem splitOn_intercalate {separator : String} {opening : Char} {others : List Char}
    (opens : separator.toList = opening :: others) {parts : List String} (some : parts ≠ [])
    (apart : ∀ part ∈ parts, opening ∉ part.toList) :
    (separator.intercalate parts).splitOn separator = parts := by
  have nonempty : separator ≠ "" := by
    rintro rfl
    cases opens
  obtain ⟨first, rest, rfl⟩ := List.exists_cons_of_ne_nil some
  rw [splitOn, if_neg (by simpa using nonempty)]
  exact splitOnAux_intercalate opens apart (List.nil_append _).symm

end Splitting

namespace Text

/-- Cutting at a separator is what the library for lists calls splitting. -/
theorem splitAt_eq_splitOn (separator : Char) (chars : List Char) :
    splitAt separator chars = chars.splitOn separator := by
  induction chars with
  | nil => simp [splitAt]
  | cons char rest ih =>
      rw [splitAt, ih, List.splitOn_cons_eq_if_modifyHead]
      by_cases same : char = separator
      · simp [same]
      · cases parts : rest.splitOn separator with
        | nil => exact (List.splitOn_ne_nil separator rest parts).elim
        | cons part others => simp [same]

theorem separator_not_mem (separator : Char) {chars part : List Char}
    (listed : part ∈ chars.splitOn separator) : separator ∉ part := by
  induction chars generalizing part with
  | nil =>
      rw [List.splitOn_nil, List.mem_singleton] at listed
      exact listed ▸ List.not_mem_nil
  | cons char rest ih =>
      rw [List.splitOn_cons_eq_if_modifyHead] at listed
      by_cases same : char = separator
      · rw [if_pos (beq_iff_eq.mpr same)] at listed
        rcases List.mem_cons.mp listed with rfl | later
        · exact List.not_mem_nil
        · exact ih later
      · rw [if_neg (beq_iff_eq.not.mpr same)] at listed
        cases parts : rest.splitOn separator with
        | nil => exact (List.splitOn_ne_nil separator rest parts).elim
        | cons first others =>
            rw [parts, List.modifyHead_cons] at listed
            rcases List.mem_cons.mp listed with rfl | later
            · rw [List.mem_cons, not_or]
              exact ⟨fun equal => same equal.symm, ih (parts ▸ List.mem_cons_self)⟩
            · exact ih (parts ▸ List.mem_cons_of_mem _ later)

end Text

/-- The steps of a path are what stands between its slashes. -/
theorem FileSystem.steps_eq (path : String) :
    steps path = (path.toList.splitOn '/').map String.ofList := by
  have joined : "/".intercalate ((path.toList.splitOn '/').map String.ofList) = path := by
    apply String.toList_injective
    rw [String.toList_intercalate, List.map_map]
    have same : String.toList ∘ String.ofList = id := funext fun _ => String.toList_ofList
    rw [same, List.map_id]
    exact List.intercalate_splitOn '/'
  have apart : ∀ part ∈ (path.toList.splitOn '/').map String.ofList, '/' ∉ part.toList := by
    intro part listed
    obtain ⟨chars, among, rfl⟩ := List.mem_map.mp listed
    rw [String.toList_ofList]
    exact Text.separator_not_mem '/' among
  have slash : "/".toList = '/' :: [] := rfl
  have parts := Splitting.splitOn_intercalate slash (by simp) apart
  rwa [joined] at parts

end Overlay
