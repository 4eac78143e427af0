import Mathlib.Data.List.TakeWhile
import Overlay.Text.Blank

/-!
# Blanks

A text is blank if it has nothing but white space; the empty text is.  Trimming takes a blank
from either end, so it finds a word without blanks in it whatever blanks surround the word.
-/

namespace Overlay.Text

/-- Nothing but white space. -/
def Blank (chars : List Char) : Prop := ∀ char ∈ chars, isBlankChar char = true

theorem isBlank_eq_true_iff {text : String} : isBlank text = true ↔ Blank text.toList := by
  simp only [isBlank, Blank, List.all_eq_true]

theorem isBlank_eq_false_iff {text : String} : isBlank text = false ↔ ¬ Blank text.toList := by
  rw [← isBlank_eq_true_iff, Bool.not_eq_true]

theorem Blank.dropWhile {chars : List Char} (blank : Blank chars) :
    chars.dropWhile isBlankChar = [] :=
  List.dropWhile_eq_nil_iff.mpr blank

/-- What trimming takes away is blank. -/
theorem exists_trimmed (chars : List Char) :
    ∃ before after, Blank before ∧ Blank after ∧ chars = before ++ (trimmed chars ++ after) := by
  have blank : ∀ chars : List Char, Blank (chars.takeWhile isBlankChar) :=
    fun chars char member => List.mem_takeWhile_imp member
  refine ⟨_, ((chars.dropWhile isBlankChar).reverse.takeWhile isBlankChar).reverse,
    blank chars, fun char member => blank _ char (List.mem_reverse.mp member), ?_⟩
  rw [trimmed, ← List.reverse_append, List.takeWhile_append_dropWhile, List.reverse_reverse,
    List.takeWhile_append_dropWhile]

/-- A word without blanks in it is what trimming finds. -/
theorem trimmed_eq {before word after : List Char} (blankBefore : Blank before)
    (blankAfter : Blank after) (visible : ∀ char ∈ word, isBlankChar char = false) :
    trimmed (before ++ (word ++ after)) = word := by
  have stays : ∀ {chars : List Char} (rest : List Char),
      (∀ char ∈ chars, isBlankChar char = false) → chars ≠ [] →
        (chars ++ rest).dropWhile isBlankChar = chars ++ rest := by
    intro chars rest visible some
    obtain ⟨first, others, rfl⟩ := List.exists_cons_of_ne_nil some
    simp [visible first List.mem_cons_self]
  have reversed : Blank after.reverse :=
    fun char member => blankAfter char (List.mem_reverse.mp member)
  rw [trimmed, List.dropWhile_append_of_pos blankBefore]
  by_cases empty : word = []
  · rw [empty, List.nil_append, blankAfter.dropWhile]
    rfl
  · have last := stays [] (fun char member => visible char (List.mem_reverse.mp member))
      (List.reverse_ne_nil_iff.mpr empty)
    rw [List.append_nil] at last
    rw [stays after visible empty, List.reverse_append, List.dropWhile_append_of_pos reversed,
      last, List.reverse_reverse]

end Overlay.Text
