import Mathlib.Algebra.Group.Nat.Hom
import Mathlib.Data.List.DropRight
import Mathlib.Data.List.TakeDrop
import Overlay.Toml.Datetime

/-!
# Spellings of date-times

What a date-time looks like is said here without writing one: which parts there are, in which
order, and which numbers their digits make.  Every date-time has one spelling, and that is the
text written for it.  The date-times that are read back from their text are exactly those that
can be read at all.
-/

namespace Overlay.Toml

/-! ## Numerals -/

/-- Digits in base ten that make a number.  They fill a width, with zeros in front only where
it takes them to do so. -/
structure Numeral (width value : Nat) (digits : List Char) : Prop where
  digit : ∀ char ∈ digits, char.isDigit = true
  value_eq : Nat.ofDigitChars 10 digits 0 = value
  width_le : width ≤ digits.length
  tight : width < digits.length → digits.head? ≠ some '0'

theorem ofDigitChars_cons_zero (first : Char) (rest : List Char) :
    Nat.ofDigitChars 10 (first :: rest) 0 =
      10 ^ rest.length * (first.toNat - '0'.toNat) + Nat.ofDigitChars 10 rest 0 := by
  rw [Nat.ofDigitChars_cons, Nat.mul_zero, Nat.zero_add, Nat.ofDigitChars_eq_ofDigitChars_zero]

section Digits

variable {first other : Char} {digits others : List Char}

theorem digit_lt (digit : first.isDigit = true) : first.toNat - '0'.toNat < 10 := by
  have bounds := Char.isDigit_iff_toNat.mp digit
  have nine : '9'.toNat = '0'.toNat + 9 := rfl
  omega

theorem eq_of_digit_eq (digit : first.isDigit = true) (otherDigit : other.isDigit = true)
    (same : first.toNat - '0'.toNat = other.toNat - '0'.toNat) : first = other := by
  have lower := (Char.isDigit_iff_toNat.mp digit).1
  have otherLower := (Char.isDigit_iff_toNat.mp otherDigit).1
  apply Char.toNat_inj.mp
  omega

theorem ofDigitChars_lt (digit : ∀ char ∈ digits, char.isDigit = true) :
    Nat.ofDigitChars 10 digits 0 < 10 ^ digits.length := by
  induction digits with
  | nil => simp
  | cons first rest ih =>
      obtain ⟨head, tail⟩ := List.forall_mem_cons.mp digit
      rw [ofDigitChars_cons_zero, List.length_cons, Nat.pow_succ]
      calc
        _ < 10 ^ rest.length * (first.toNat - '0'.toNat) + 10 ^ rest.length :=
          Nat.add_lt_add_left (ih tail) _
        _ = 10 ^ rest.length * (first.toNat - '0'.toNat + 1) := (Nat.mul_succ _ _).symm
        _ ≤ 10 ^ rest.length * 10 := Nat.mul_le_mul_left _ (digit_lt head)

/-- Without a zero in front a number has as many digits as it needs. -/
theorem le_ofDigitChars (digit : first.isDigit = true) (nonzero : first ≠ '0')
    (rest : List Char) : 10 ^ rest.length ≤ Nat.ofDigitChars 10 (first :: rest) 0 := by
  have positive : 1 ≤ first.toNat - '0'.toNat := by
    apply Nat.one_le_iff_ne_zero.mpr
    exact fun zero => nonzero (eq_of_digit_eq digit rfl zero)
  rw [ofDigitChars_cons_zero]
  exact Nat.le_add_right_of_le (Nat.le_mul_of_pos_right _ positive)

/-- As many digits that make the same number are the same digits. -/
theorem eq_of_ofDigitChars_eq (length : digits.length = others.length)
    (digit : ∀ char ∈ digits, char.isDigit = true)
    (otherDigit : ∀ char ∈ others, char.isDigit = true)
    (same : Nat.ofDigitChars 10 digits 0 = Nat.ofDigitChars 10 others 0) : digits = others := by
  induction digits generalizing others with
  | nil => exact (List.length_eq_zero_iff.mp length.symm).symm
  | cons first rest ih =>
      cases others with
      | nil => cases length
      | cons other behind =>
          obtain ⟨head, tail⟩ := List.forall_mem_cons.mp digit
          obtain ⟨otherHead, otherTail⟩ := List.forall_mem_cons.mp otherDigit
          have long : rest.length = behind.length := Nat.succ.inj length
          have below := ofDigitChars_lt tail
          have otherBelow := long ▸ ofDigitChars_lt otherTail
          rw [ofDigitChars_cons_zero, ofDigitChars_cons_zero, ← long] at same
          have positive : 0 < 10 ^ rest.length := Nat.pow_pos (by decide)
          have leading := congrArg (fun number => number / 10 ^ rest.length) same
          simp only [Nat.mul_add_div positive, Nat.div_eq_of_lt below,
            Nat.div_eq_of_lt otherBelow, Nat.add_zero] at leading
          have heads : first = other := eq_of_digit_eq head otherHead leading
          rw [heads] at same ⊢
          rw [ih long tail otherTail (Nat.add_left_cancel same)]

end Digits

namespace Numeral

variable {width value : Nat} {digits others : List Char}

/-- A longer numeral makes a greater number. -/
theorem not_length_lt (numeral : Numeral width value digits)
    (another : Numeral width value others) : ¬ digits.length < others.length := by
  intro longer
  cases others with
  | nil => cases longer
  | cons first rest =>
      have nonzero : first ≠ '0' := by
        intro zero
        exact another.tight (Nat.lt_of_le_of_lt numeral.width_le longer) (congrArg some zero)
      have least := le_ofDigitChars (another.digit _ List.mem_cons_self) nonzero rest
      rw [another.value_eq, ← numeral.value_eq] at least
      refine Nat.lt_irrefl _ (Nat.lt_of_lt_of_le (ofDigitChars_lt numeral.digit) ?_)
      exact Nat.le_trans (Nat.pow_le_pow_right (by decide) (Nat.le_of_lt_succ longer)) least

theorem unique (numeral : Numeral width value digits) (another : Numeral width value others) :
    digits = others := by
  apply eq_of_ofDigitChars_eq
  · exact Nat.le_antisymm (Nat.not_lt.mp (another.not_length_lt numeral))
      (Nat.not_lt.mp (numeral.not_length_lt another))
  · exact numeral.digit
  · exact another.digit
  · exact numeral.value_eq.trans another.value_eq.symm

/-- A number below a power of ten takes no more digits than that power has zeros. -/
theorem length_eq (numeral : Numeral width value digits) (small : value < 10 ^ width) :
    digits.length = width := by
  refine (Nat.eq_or_lt_of_le numeral.width_le).elim Eq.symm fun longer => ?_
  cases digits with
  | nil => cases longer
  | cons first rest =>
      have nonzero : first ≠ '0' := fun zero => numeral.tight longer (congrArg some zero)
      have least := le_ofDigitChars (numeral.digit _ List.mem_cons_self) nonzero rest
      rw [numeral.value_eq] at least
      have large := Nat.pow_le_pow_right (n := 10) (by decide) (Nat.le_of_lt_succ longer)
      exact (Nat.lt_irrefl _ (Nat.lt_of_lt_of_le small (Nat.le_trans large least))).elim

end Numeral

theorem toList_padded (width value : Nat) :
    (padded width value).toList =
      List.replicate (width - (Nat.toDigits 10 value).length) '0' ++ Nat.toDigits 10 value :=
  String.toList_ofList

theorem numeral_padded {width : Nat} (wide : 0 < width) (value : Nat) :
    Numeral width value (padded width value).toList := by
  rw [toList_padded]
  constructor
  case digit =>
    intro char member
    rcases List.mem_append.mp member with zero | digit
    · exact (List.eq_of_mem_replicate zero) ▸ rfl
    · exact Nat.isDigit_of_mem_toDigits (by decide) (Nat.le_refl 10) digit
  case value_eq =>
    rw [Nat.ofDigitChars_append, Nat.ofDigitChars_replicate_zero, Nat.mul_zero,
      Nat.ofDigitChars_ten_toDigits]
  case width_le =>
    rw [List.length_append, List.length_replicate]
    omega
  case tight =>
    rw [List.length_append, List.length_replicate]
    intro longer zero
    have many : width < (Nat.toDigits 10 value).length := by omega
    rw [Nat.sub_eq_zero_of_le (Nat.le_of_lt many), List.replicate_zero, List.nil_append] at zero
    -- A zero in front would leave the number to fewer digits.
    obtain ⟨rest, split⟩ := List.head?_eq_some_iff.mp zero
    have digit : ∀ char ∈ rest, char.isDigit = true := by
      intro char member
      apply Nat.isDigit_of_mem_toDigits (by decide) (Nat.le_refl 10)
      exact split ▸ List.mem_cons_of_mem _ member
    have small : value < 10 ^ rest.length := by
      have made := Nat.ofDigitChars_ten_toDigits (n := value)
      rw [split, ofDigitChars_cons_zero] at made
      rw [← made, Nat.sub_self, Nat.mul_zero, Nat.zero_add]
      exact ofDigitChars_lt digit
    rw [split, List.length_cons] at many
    have fewer := (Nat.length_toDigits_le_iff (b := 10) (by decide) (by omega)).mpr small
    rw [split, List.length_cons] at fewer
    exact Nat.not_succ_le_self _ fewer

theorem numeral_iff {width value : Nat} (wide : 0 < width) {digits : List Char} :
    Numeral width value digits ↔ digits = (padded width value).toList :=
  ⟨fun numeral => numeral.unique (numeral_padded wide value),
    fun same => same ▸ numeral_padded wide value⟩

/-! ## Spellings -/

/-- Year, month and day. -/
inductive Date.Spells (date : Date) : List Char → Prop where
  | parts {year month day : List Char} (ofYear : Numeral 4 date.year year)
      (ofMonth : Numeral 2 date.month month) (ofDay : Numeral 2 date.day day) :
      Spells date (year ++ '-' :: (month ++ '-' :: day))

/-- The fraction of a second to nine places, less the zeros at its end; none, if nothing is left
of it. -/
inductive Time.Fraction (nanosecond : Nat) : List Char → Prop where
  | whole (none : nanosecond = 0) : Fraction nanosecond []
  | part {digits : List Char} {zeros : Nat} (some : nanosecond ≠ 0)
      (places : Numeral 9 nanosecond (digits ++ List.replicate zeros '0'))
      (tight : digits.getLast? ≠ .some '0') : Fraction nanosecond ('.' :: digits)

/-- Hour, minute, second and the fraction. -/
inductive Time.Spells (time : Time) : List Char → Prop where
  | parts {hour minute second fraction : List Char} (ofHour : Numeral 2 time.hour hour)
      (ofMinute : Numeral 2 time.minute minute) (ofSecond : Numeral 2 time.second second)
      (ofFraction : Fraction time.nanosecond fraction) :
      Spells time (hour ++ ':' :: (minute ++ ':' :: (second ++ fraction)))

/-- Universal time, or hours and minutes ahead of it or behind. -/
inductive Offset.Spells : Offset → List Char → Prop where
  | universal : Spells .universal ['Z']
  | ahead {hour minute : Nat} {hours minutes : List Char} (within : minute < 60)
      (ofHour : Numeral 2 hour hours) (ofMinute : Numeral 2 minute minutes) :
      Spells (.minutes (60 * hour + minute : Nat)) ('+' :: (hours ++ ':' :: minutes))
  | behind {hour minute : Nat} {hours minutes : List Char} (within : minute < 60)
      (ofHour : Numeral 2 hour hours) (ofMinute : Numeral 2 minute minutes)
      (some : 0 < 60 * hour + minute) :
      Spells (.minutes (-(60 * hour + minute : Nat))) ('-' :: (hours ++ ':' :: minutes))

/-- The offset, if there is one. -/
inductive Offset.SpellsAny : Option Offset → List Char → Prop where
  | none : SpellsAny .none []
  | some {offset : Offset} {chars : List Char} (spells : offset.Spells chars) :
      SpellsAny (.some offset) chars

/-- Date and time with a `T` between them, or what there is of the two, and the offset. -/
inductive Datetime.Spells : Datetime → List Char → Prop where
  | both {date : Date} {time : Time} {offset : Option Offset} {day clock zone : List Char}
      (ofDate : date.Spells day) (ofTime : time.Spells clock)
      (ofOffset : Offset.SpellsAny offset zone) :
      Spells ⟨some date, some time, offset⟩ (day ++ 'T' :: (clock ++ zone))
  | date {date : Date} {offset : Option Offset} {day zone : List Char}
      (ofDate : date.Spells day) (ofOffset : Offset.SpellsAny offset zone) :
      Spells ⟨some date, none, offset⟩ (day ++ zone)
  | time {time : Time} {offset : Option Offset} {clock zone : List Char}
      (ofTime : time.Spells clock) (ofOffset : Offset.SpellsAny offset zone) :
      Spells ⟨none, some time, offset⟩ (clock ++ zone)
  | neither {offset : Option Offset} {zone : List Char}
      (ofOffset : Offset.SpellsAny offset zone) : Spells ⟨none, none, offset⟩ zone

/-! ## The text that is written -/

theorem Date.spells_iff {date : Date} {chars : List Char} :
    date.Spells chars ↔ chars = date.text.toList := by
  have text : date.text.toList = (padded 4 date.year).toList ++ '-' ::
      ((padded 2 date.month).toList ++ '-' :: (padded 2 date.day).toList) := by
    simp [Date.text]
  rw [text]
  constructor
  · rintro ⟨ofYear, ofMonth, ofDay⟩
    rw [(numeral_iff (by decide)).mp ofYear, (numeral_iff (by decide)).mp ofMonth,
      (numeral_iff (by decide)).mp ofDay]
  · rintro rfl
    exact .parts (numeral_padded (by decide) _) (numeral_padded (by decide) _)
      (numeral_padded (by decide) _)

/-- What is left of a text when the zeros at its end are taken off. -/
theorem eq_append_zeros_iff {chars digits : List Char} :
    (∃ zeros, chars = digits ++ List.replicate zeros '0') ∧ digits.getLast? ≠ some '0' ↔
      digits = (chars.reverse.dropWhile (· = '0')).reverse := by
  constructor
  · rintro ⟨⟨zeros, rfl⟩, tight⟩
    rw [List.reverse_append, List.reverse_replicate, List.dropWhile_append_of_pos (by simp)]
    rw [List.getLast?_eq_head?_reverse] at tight
    cases reversed : digits.reverse with
    | nil => simpa using reversed
    | cons last others =>
        rw [reversed] at tight
        have kept : ¬ last = '0' := by simpa using tight
        rw [List.dropWhile_cons_of_neg (by simpa using kept), ← reversed, List.reverse_reverse]
  · rintro rfl
    refine ⟨⟨(chars.reverse.takeWhile (· = '0')).length, ?_⟩, ?_⟩
    · have zeros : chars.reverse.takeWhile (· = '0') =
          List.replicate (chars.reverse.takeWhile (· = '0')).length '0' := by
        refine List.eq_replicate_iff.mpr ⟨rfl, fun char member => ?_⟩
        have zero := List.mem_takeWhile_imp member
        exact of_decide_eq_true zero
      rw [← List.reverse_replicate, ← zeros, ← List.reverse_append,
        List.takeWhile_append_dropWhile, List.reverse_reverse]
    · rw [List.getLast?_reverse]
      intro zero
      have kept := List.head?_dropWhile_not (fun char : Char => decide (char = '0')) chars.reverse
      rw [zero] at kept
      cases kept

theorem Time.fraction_iff {nanosecond : Nat} {chars : List Char} :
    Fraction nanosecond chars ↔ chars = (fractionText nanosecond).toList := by
  rw [fractionText]
  split
  · next zero =>
      constructor
      · rintro (_ | ⟨some, _, _⟩)
        · rfl
        · exact (some zero).elim
      · rintro rfl
        exact .whole zero
  · next nonzero =>
      rw [String.toList_ofList]
      constructor
      · rintro (none | ⟨_, places, tight⟩)
        · exact (nonzero none).elim
        · rw [eq_append_zeros_iff.mp ⟨⟨_, ((numeral_iff (by decide)).mp places).symm⟩, tight⟩]
      · rintro rfl
        obtain ⟨⟨zeros, split⟩, tight⟩ := eq_append_zeros_iff.mpr
          (Eq.refl ((padded 9 nanosecond).toList.reverse.dropWhile (· = '0')).reverse)
        exact .part nonzero (split ▸ numeral_padded (by decide) nanosecond) tight

theorem Time.spells_iff {time : Time} {chars : List Char} :
    time.Spells chars ↔ chars = time.text.toList := by
  have text : time.text.toList = (padded 2 time.hour).toList ++ ':' ::
      ((padded 2 time.minute).toList ++ ':' ::
        ((padded 2 time.second).toList ++ (fractionText time.nanosecond).toList)) := by
    simp [Time.text]
  rw [text]
  constructor
  · rintro ⟨ofHour, ofMinute, ofSecond, ofFraction⟩
    rw [(numeral_iff (by decide)).mp ofHour, (numeral_iff (by decide)).mp ofMinute,
      (numeral_iff (by decide)).mp ofSecond, fraction_iff.mp ofFraction]
  · rintro rfl
    exact .parts (numeral_padded (by decide) _) (numeral_padded (by decide) _)
      (numeral_padded (by decide) _) (fraction_iff.mpr rfl)

theorem Offset.toList_text_ahead (hour : Nat) {minute : Nat} (within : minute < 60) :
    (Offset.minutes (60 * hour + minute : Nat)).text.toList =
      '+' :: ((padded 2 hour).toList ++ ':' :: (padded 2 minute).toList) := by
  have ahead : ¬ ((60 * hour + minute : Nat) : Int) < 0 := by omega
  rw [Offset.text, if_neg ahead, Int.natAbs_natCast, Nat.mul_add_div (by decide), Nat.mul_add_mod,
    Nat.div_eq_of_lt within, Nat.mod_eq_of_lt within]
  simp

theorem Offset.toList_text_behind {hour minute : Nat} (within : minute < 60)
    (some : 0 < 60 * hour + minute) :
    (Offset.minutes (-(60 * hour + minute : Nat))).text.toList =
      '-' :: ((padded 2 hour).toList ++ ':' :: (padded 2 minute).toList) := by
  have behind : -((60 * hour + minute : Nat) : Int) < 0 := by omega
  rw [Offset.text, if_pos behind, Int.natAbs_neg, Int.natAbs_natCast, Nat.mul_add_div (by decide),
    Nat.mul_add_mod, Nat.div_eq_of_lt within, Nat.mod_eq_of_lt within]
  simp

/-- Every number of minutes is so many hours and minutes ahead or behind. -/
theorem Offset.spells_text (offset : Offset) : offset.Spells offset.text.toList := by
  cases offset with
  | universal => exact .universal
  | minutes count =>
      have spelled (value : Nat) : Numeral 2 value _ := numeral_padded (by decide) value
      have within (total : Nat) : total % 60 < 60 := Nat.mod_lt _ (by decide)
      cases count with
      | ofNat total =>
          have spells := Offset.Spells.ahead (within total) (spelled (total / 60)) (spelled _)
          rwa [← toList_text_ahead _ (within total), Nat.div_add_mod] at spells
      | negSucc before =>
          have some : 0 < 60 * ((before + 1) / 60) + (before + 1) % 60 := by
            rw [Nat.div_add_mod]
            exact Nat.succ_pos before
          have spells := Offset.Spells.behind (within _) (spelled _) (spelled _) some
          rwa [← toList_text_behind (within _) some, Nat.div_add_mod] at spells

theorem Offset.spells_iff {offset : Offset} {chars : List Char} :
    offset.Spells chars ↔ chars = offset.text.toList := by
  constructor
  · intro spells
    cases spells with
    | universal => rfl
    | ahead within ofHour ofMinute =>
        rw [toList_text_ahead _ within, (numeral_iff (by decide)).mp ofHour,
          (numeral_iff (by decide)).mp ofMinute]
    | behind within ofHour ofMinute some =>
        rw [toList_text_behind within some, (numeral_iff (by decide)).mp ofHour,
          (numeral_iff (by decide)).mp ofMinute]
  · exact fun same => same ▸ offset.spells_text

theorem Offset.spellsAny_iff {offset : Option Offset} {chars : List Char} :
    SpellsAny offset chars ↔ chars = ((offset.map Offset.text).getD "").toList := by
  cases offset with
  | none =>
      constructor
      · rintro ⟨⟩
        rfl
      · rintro rfl
        exact .none
  | some offset =>
      constructor
      · rintro ⟨⟩
        exact spells_iff.mp ‹_›
      · exact fun same => .some (spells_iff.mpr same)

namespace Datetime

/-- A date-time has one spelling, which is the text that is written for it. -/
theorem spells_iff {datetime : Datetime} {chars : List Char} :
    datetime.Spells chars ↔ chars = datetime.text.toList := by
  constructor
  · intro spells
    cases spells with
    | both ofDate ofTime ofOffset =>
        rw [Date.spells_iff.mp ofDate, Time.spells_iff.mp ofTime, Offset.spellsAny_iff.mp ofOffset]
        simp [text]
    | date ofDate ofOffset =>
        rw [Date.spells_iff.mp ofDate, Offset.spellsAny_iff.mp ofOffset]
        simp [text]
    | time ofTime ofOffset =>
        rw [Time.spells_iff.mp ofTime, Offset.spellsAny_iff.mp ofOffset]
        simp [text]
    | neither ofOffset =>
        rw [Offset.spellsAny_iff.mp ofOffset]
        simp [text]
  · rintro rfl
    obtain ⟨date, time, offset⟩ := datetime
    have ofOffset : Offset.SpellsAny offset ((offset.map Offset.text).getD "").toList :=
      Offset.spellsAny_iff.mpr rfl
    cases date with
    | none =>
        cases time with
        | none => simpa [text] using Spells.neither ofOffset
        | some time => simpa [text] using Spells.time (Time.spells_iff.mpr rfl) ofOffset
    | some date =>
        have ofDate : date.Spells date.text.toList := Date.spells_iff.mpr rfl
        cases time with
        | none => simpa [text] using Spells.date ofDate ofOffset
        | some time => simpa [text] using Spells.both ofDate (Time.spells_iff.mpr rfl) ofOffset

end Datetime

/-! ## What is read back -/

/-- A day of the calendar, in a year of four digits. -/
structure Date.Valid (date : Date) : Prop where
  year : date.year < 10000
  month : 1 ≤ date.month ∧ date.month ≤ 12
  day : 1 ≤ date.day ∧ date.day ≤ daysIn date.year date.month

theorem Date.daysIn_le (year month : Nat) : daysIn year month ≤ 31 := by
  unfold daysIn
  split
  · split <;> decide
  all_goals decide

/-- A time of day, be it in a leap second. -/
structure Time.Valid (time : Time) : Prop where
  hour : time.hour ≤ 23
  minute : time.minute ≤ 59
  second : time.second ≤ 60
  nanosecond : time.nanosecond < 10 ^ 9

/-- Less than a day ahead of universal time or behind it. -/
def Offset.Valid : Offset → Prop
  | .universal => True
  | .minutes count => count.natAbs < 24 * 60

/-- A date, a time of day, or both.  Only both together have an offset. -/
inductive Datetime.Valid : Datetime → Prop where
  | both {date : Date} {time : Time} {offset : Option Offset} (ofDate : date.Valid)
      (ofTime : time.Valid) (ofOffset : ∀ zone ∈ offset, zone.Valid) :
      Valid ⟨some date, some time, offset⟩
  | date {date : Date} (ofDate : date.Valid) : Valid ⟨some date, none, none⟩
  | time {time : Time} (ofTime : time.Valid) : Valid ⟨none, some time, none⟩

namespace Datetime

theorem digit?_of_digit {char : Char} (digit : char.isDigit = true) :
    digit? char = some (char.toNat - '0'.toNat) := if_pos digit

theorem twoDigits_cons {first second : Char} (head : first.isDigit = true)
    (last : second.isDigit = true) (rest : List Char) :
    twoDigits (first :: second :: rest) =
      some (10 * (first.toNat - '0'.toNat) + (second.toNat - '0'.toNat), rest) := by
  simp [twoDigits, digit?_of_digit head, digit?_of_digit last]

theorem twoDigits_append {value : Nat} {digits : List Char} (numeral : Numeral 2 value digits)
    (small : value < 100) (rest : List Char) :
    twoDigits (digits ++ rest) = some (value, rest) := by
  obtain ⟨first, second, rfl⟩ := List.length_eq_two.mp (numeral.length_eq small)
  have made := numeral.value_eq
  simp only [Nat.ofDigitChars_cons, Nat.ofDigitChars_nil, Nat.mul_zero, Nat.zero_add] at made
  rw [← made]
  exact twoDigits_cons (numeral.digit first (by simp)) (numeral.digit second (by simp)) rest

theorem twoDigitsUpTo_append {limit value : Nat} {digits : List Char}
    (numeral : Numeral 2 value digits) (within : value ≤ limit) (low : limit < 100)
    (rest : List Char) : twoDigitsUpTo limit (digits ++ rest) = some (value, rest) := by
  rw [twoDigitsUpTo, twoDigits_append numeral (Nat.lt_of_le_of_lt within low)]
  exact if_pos within

theorem twoDigits_twice {value : Nat} {digits : List Char} (numeral : Numeral 4 value digits)
    (small : value < 10000) (rest : List Char) :
    ∃ century year tail, twoDigits (digits ++ rest) = some (century, tail) ∧
      twoDigits tail = some (year, rest) ∧ 100 * century + year = value := by
  match digits, numeral, numeral.length_eq small with
  | [first, second, third, fourth], numeral, _ =>
      have made := numeral.value_eq
      simp only [Nat.ofDigitChars_cons, Nat.ofDigitChars_nil] at made
      refine ⟨_, _, _, twoDigits_cons (numeral.digit first (by simp))
        (numeral.digit second (by simp)) (third :: fourth :: rest),
        twoDigits_cons (numeral.digit third (by simp)) (numeral.digit fourth (by simp)) rest, ?_⟩
      omega

theorem readDate_append {date : Date} {chars : List Char} (spells : date.Spells chars)
    (valid : date.Valid) (rest : List Char) : readDate (chars ++ rest) = some (date, rest) := by
  obtain ⟨ofYear, ofMonth, ofDay⟩ := spells
  rename_i yearDigits monthDigits dayDigits
  have small : date.day < 100 :=
    Nat.lt_of_le_of_lt (Nat.le_trans valid.day.2 (Date.daysIn_le _ _)) (by decide)
  obtain ⟨century, year, tail, first, second, made⟩ := twoDigits_twice ofYear valid.year
    ('-' :: (monthDigits ++ '-' :: (dayDigits ++ rest)))
  have month := twoDigitsUpTo_append ofMonth valid.month.2 (by decide) ('-' :: (dayDigits ++ rest))
  have day := twoDigits_append ofDay small rest
  simp only [List.append_assoc, List.cons_append]
  simp only [readDate, first, second, made, expect, month, day, Option.bind_eq_bind,
    Option.bind_some, if_true]
  exact if_pos ⟨valid.month.1, valid.day⟩

/-- Nothing of the rest could belong to a time that ends before it. -/
def Stops (rest : List Char) : Prop :=
  ∀ char ∈ rest.head?, char.isDigit = false ∧ char ≠ '.'

theorem stops_of_spellsAny {offset : Option Offset} {zone : List Char}
    (spells : Offset.SpellsAny offset zone) : Stops zone := by
  intro char first
  cases spells with
  | none => cases first
  | some spells =>
      cases spells <;>
        · cases first
          decide

theorem mapM_digit?_eq_some_iff {chars : List Char} {values : List Nat} :
    chars.mapM digit? = some values ↔
      (∀ char ∈ chars, char.isDigit = true) ∧
        values = chars.map fun char => char.toNat - '0'.toNat := by
  induction chars generalizing values with
  | nil =>
      rw [List.mapM_nil]
      exact ⟨fun same => ⟨by simp, (Option.some.inj same).symm⟩, fun both => both.2 ▸ rfl⟩
  | cons first rest ih =>
      rw [List.mapM_cons, List.forall_mem_cons, List.map_cons]
      cases digit : first.isDigit with
      | false => simp [digit?, digit]
      | true =>
          simp only [digit?_of_digit digit, Option.bind_eq_bind, Option.bind_some,
            Option.bind_eq_some_iff, ih, Option.pure_def, Option.some.injEq, true_and]
          constructor
          · rintro ⟨others, ⟨digits, rfl⟩, rfl⟩
            exact ⟨digits, rfl⟩
          · rintro ⟨digits, rfl⟩
            exact ⟨_, ⟨digits, rfl⟩, rfl⟩

theorem ofDigits_digits (chars : List Char) :
    Text.ofDigits 10 (chars.map fun char => char.toNat - '0'.toNat) =
      Nat.ofDigitChars 10 chars 0 := by
  rw [Text.ofDigits, List.foldl_map, Nat.ofDigitChars_eq_foldl]

theorem readFraction_append {nanosecond : Nat} {chars rest : List Char}
    (fraction : Time.Fraction nanosecond chars) (small : nanosecond < 10 ^ 9)
    (stops : Stops rest) : readFraction (chars ++ rest) = some (nanosecond, rest) := by
  cases fraction with
  | whole none =>
      rw [none, List.nil_append]
      cases rest with
      | nil => rfl
      | cons first behind =>
          have noPoint := (stops first rfl).2
          rw [readFraction.eq_def]
          split
          · simp_all
          · rfl
  | @part digits zeros some places tight =>
      have digit : ∀ char ∈ digits, char.isDigit = true := fun char member =>
        places.digit char (List.mem_append_left _ member)
      have nonempty : digits ≠ [] := by
        rintro rfl
        have made := places.value_eq
        rw [List.nil_append, Nat.ofDigitChars_replicate_zero, Nat.mul_zero] at made
        exact some made.symm
      have behind : rest.takeWhile Char.isDigit = [] := by
        cases rest with
        | nil => rfl
        | cons first behind => simp [(stops first rfl).1]
      have span : (digits ++ rest).span Char.isDigit = (digits, rest) := by
        rw [List.span_eq_takeWhile_dropWhile, List.takeWhile_append_of_pos digit, behind,
          List.dropWhile_append_of_pos digit, List.append_nil]
        congr
        have whole := List.takeWhile_append_dropWhile (p := Char.isDigit) (l := rest)
        rwa [behind, List.nil_append] at whole
      have nine : (digits ++ List.replicate 9 '0').take 9 = digits ++ List.replicate zeros '0' := by
        have length := places.length_eq small
        rw [List.length_append, List.length_replicate] at length
        rw [List.take_append, List.take_of_length_le (by omega), List.take_replicate]
        congr
        omega
      have values := mapM_digit?_eq_some_iff.mpr ⟨places.digit, rfl⟩
      rw [List.cons_append, readFraction, span]
      simp only [nine, values, Option.bind_eq_bind, Option.bind_some, ofDigits_digits,
        places.value_eq]

theorem readTime_append {time : Time} {chars rest : List Char} (spells : time.Spells chars)
    (valid : time.Valid) (stops : Stops rest) :
    readTime (chars ++ rest) = some (time, rest) := by
  obtain ⟨ofHour, ofMinute, ofSecond, ofFraction⟩ := spells
  simp only [List.append_assoc, List.cons_append]
  simp only [readTime, twoDigitsUpTo_append ofHour valid.hour (by decide),
    twoDigitsUpTo_append ofMinute valid.minute (by decide),
    twoDigitsUpTo_append ofSecond valid.second (by decide),
    readFraction_append ofFraction valid.nanosecond stops, expect, Option.bind_eq_bind,
    Option.bind_some, if_true]

theorem readMinutes_numerals {hour minute : Nat} {hours minutes : List Char}
    (small : hour ≤ 23) (within : minute < 60) (ofHour : Numeral 2 hour hours)
    (ofMinute : Numeral 2 minute minutes) (sign : Int) :
    readMinutes sign (hours ++ ':' :: minutes) =
      some (some (.minutes (sign * (60 * hour + minute : Nat))), []) := by
  have last := twoDigitsUpTo_append ofMinute (Nat.le_of_lt_succ within) (by decide) []
  rw [List.append_nil] at last
  simp only [readMinutes, twoDigitsUpTo_append ofHour small (by decide), last, expect,
    Option.bind_eq_bind, Option.bind_some, if_true]

theorem readOffset_of_spellsAny {offset : Option Offset} {zone : List Char}
    (spells : Offset.SpellsAny offset zone) (valid : ∀ each ∈ offset, each.Valid) :
    readOffset zone = some (offset, []) := by
  cases spells with
  | none => rfl
  | some spells =>
      have small := valid _ rfl
      cases spells with
      | universal => rfl
      | ahead within ofHour ofMinute =>
          rw [Offset.Valid, Int.natAbs_natCast] at small
          rw [readOffset, readMinutes_numerals (by omega) within ofHour ofMinute, Int.one_mul]
      | behind within ofHour ofMinute some =>
          rw [Offset.Valid, Int.natAbs_neg, Int.natAbs_natCast] at small
          rw [readOffset, readMinutes_numerals (by omega) within ofHour ofMinute, Int.neg_one_mul]

/-- A time is no date: after its hour stands a colon. -/
theorem readDate_of_time {time : Time} {chars : List Char} (spells : time.Spells chars)
    (valid : time.Valid) : readDate chars = none := by
  obtain ⟨ofHour, ofMinute, ofSecond, ofFraction⟩ := spells
  have hour := Nat.lt_of_le_of_lt valid.hour (by decide : 23 < 100)
  have colon (rest : List Char) : twoDigits (':' :: rest) = none := by
    cases rest <;> rfl
  simp only [readDate, twoDigits_append ofHour hour, colon, Option.bind_eq_bind, Option.bind_some,
    Option.bind_none]

/-- What a valid date-time is spelled as is read as that date-time. -/
theorem read_of_spells {datetime : Datetime} {chars : List Char}
    (spells : datetime.Spells chars) (valid : datetime.Valid) :
    read chars = some (datetime, []) := by
  cases spells with
  | both ofDate ofTime ofOffset =>
      obtain ⟨validDate, validTime, validOffset⟩ := valid
      rw [read, readFromDate, readDate_append ofDate validDate]
      simp only [Option.bind_eq_bind, Option.bind_some,
        readTime_append ofTime validTime (stops_of_spellsAny ofOffset),
        readOffset_of_spellsAny ofOffset validOffset, true_or, if_true]
  | date ofDate ofOffset =>
      cases valid with
      | date validDate =>
          cases ofOffset
          rw [read, readFromDate, readDate_append ofDate validDate]
          rfl
  | time ofTime ofOffset =>
      cases valid with
      | time validTime =>
          cases ofOffset
          rw [List.append_nil, read, readFromDate, readDate_of_time ofTime validTime]
          have stops : Stops [] := fun char absent => by cases absent
          have found := readTime_append ofTime validTime stops
          rw [List.append_nil] at found
          simp [found]
  | neither => cases valid

section Valid

variable {chars rest : List Char}

theorem twoDigits_lt {value : Nat} (found : twoDigits chars = some (value, rest)) :
    value < 100 := by
  have below : ∀ {char value}, digit? char = some value → value < 10 := by
    intro char value found
    rw [digit?] at found
    split at found
    · next digit => exact Option.some.inj found ▸ digit_lt digit
    · cases found
  match chars, found with
  | first :: second :: behind, found =>
      simp only [twoDigits, Option.bind_eq_bind, Option.bind_eq_some_iff, Option.some.injEq,
        Prod.mk.injEq] at found
      obtain ⟨ten, isTen, one, isOne, rfl, -⟩ := found
      have small := below isTen
      have least := below isOne
      omega

theorem twoDigitsUpTo_le {limit value : Nat}
    (found : twoDigitsUpTo limit chars = some (value, rest)) : value ≤ limit := by
  simp only [twoDigitsUpTo, Option.bind_eq_bind, Option.bind_eq_some_iff] at found
  obtain ⟨⟨value, behind⟩, -, found⟩ := found
  dsimp only at found
  split at found
  · next within =>
      cases found
      exact within
  · cases found

theorem valid_of_readDate {date : Date} (found : readDate chars = some (date, rest)) :
    date.Valid := by
  simp only [readDate, Option.bind_eq_bind, Option.bind_eq_some_iff] at found
  obtain ⟨⟨century, _⟩, isCentury, ⟨year, _⟩, isYear, _, _, ⟨month, _⟩, isMonth, _, _, ⟨day, _⟩, _,
    found⟩ := found
  dsimp only at found
  split at found
  · next fits =>
      cases found
      have small := twoDigits_lt isCentury
      have least := twoDigits_lt isYear
      exact ⟨by dsimp only; omega, ⟨fits.1, twoDigitsUpTo_le isMonth⟩, fits.2⟩
  · cases found

theorem readFraction_lt {nanosecond : Nat}
    (found : readFraction chars = some (nanosecond, rest)) : nanosecond < 10 ^ 9 := by
  rw [readFraction.eq_def] at found
  split at found
  · split at found
    · cases found
    · next digits behind _ _ =>
        simp only [Option.bind_eq_bind, Option.bind_eq_some_iff, Option.some.injEq,
          Prod.mk.injEq] at found
        obtain ⟨values, read, rfl, -⟩ := found
        obtain ⟨digit, rfl⟩ := mapM_digit?_eq_some_iff.mp read
        rw [ofDigits_digits]
        refine Nat.lt_of_lt_of_le (ofDigitChars_lt digit) ?_
        exact Nat.pow_le_pow_right (by decide) (List.length_take_le _ _)
  · cases found
    decide

theorem valid_of_readTime {time : Time} (found : readTime chars = some (time, rest)) :
    time.Valid := by
  simp only [readTime, Option.bind_eq_bind, Option.bind_eq_some_iff] at found
  obtain ⟨⟨hour, _⟩, isHour, _, _, ⟨minute, _⟩, isMinute, _, _, ⟨second, _⟩, isSecond,
    ⟨nanosecond, _⟩, isNanosecond, found⟩ := found
  cases found
  exact ⟨twoDigitsUpTo_le isHour, twoDigitsUpTo_le isMinute, twoDigitsUpTo_le isSecond,
    readFraction_lt isNanosecond⟩

theorem valid_of_readMinutes {sign : Int} (unit : sign.natAbs = 1) {offset : Option Offset}
    (found : readMinutes sign chars = some (offset, rest)) : ∀ zone ∈ offset, zone.Valid := by
  simp only [readMinutes, Option.bind_eq_bind, Option.bind_eq_some_iff] at found
  obtain ⟨⟨hour, _⟩, isHour, _, _, ⟨minute, _⟩, isMinute, found⟩ := found
  cases found
  intro zone same
  cases same
  have hours := twoDigitsUpTo_le isHour
  have minutes := twoDigitsUpTo_le isMinute
  rw [Offset.Valid, Int.natAbs_mul, unit, Int.natAbs_natCast]
  omega

theorem valid_of_readOffset {offset : Option Offset}
    (found : readOffset chars = some (offset, rest)) : ∀ zone ∈ offset, zone.Valid := by
  rw [readOffset.eq_def] at found
  split at found
  · cases found
    rintro zone ⟨⟩
    trivial
  · cases found
    rintro zone ⟨⟩
    trivial
  · exact valid_of_readMinutes rfl found
  · exact valid_of_readMinutes rfl found
  · cases found
    rintro zone ⟨⟩

theorem valid_of_readFromDate {datetime : Datetime}
    (found : readFromDate chars = some (datetime, rest)) : datetime.Valid := by
  simp only [readFromDate, Option.bind_eq_bind, Option.bind_eq_some_iff] at found
  obtain ⟨⟨date, behind⟩, isDate, found⟩ := found
  have alone : Valid ⟨some date, none, none⟩ := .date (valid_of_readDate isDate)
  dsimp only at found
  split at found
  · split at found
    · split at found
      · next time _ isTime =>
          simp only [Option.bind_eq_some_iff] at found
          obtain ⟨⟨offset, _⟩, isOffset, found⟩ := found
          cases found
          exact .both (valid_of_readDate isDate) (valid_of_readTime isTime)
            (valid_of_readOffset isOffset)
      · cases found
        exact alone
    · cases found
      exact alone
  · cases found
    exact alone

/-- Only valid date-times are read. -/
theorem valid_of_read {datetime : Datetime} (found : read chars = some (datetime, rest)) :
    datetime.Valid := by
  rw [read] at found
  split at found
  · next isDate =>
      cases found
      exact valid_of_readFromDate isDate
  · simp only [Option.bind_eq_bind, Option.bind_eq_some_iff] at found
    obtain ⟨⟨time, _⟩, isTime, found⟩ := found
    cases found
    exact .time (valid_of_readTime isTime)

end Valid

theorem valid_of_ofText? {text : String} {datetime : Datetime}
    (found : ofText? text = some datetime) : datetime.Valid := by
  rw [ofText?] at found
  split at found
  · next isRead =>
      cases found
      exact valid_of_read isRead
  · cases found

/-- A date-time is read back from its text exactly when it is valid. -/
theorem ofText?_text_eq_some_iff {datetime : Datetime} :
    ofText? datetime.text = some datetime ↔ datetime.Valid := by
  constructor
  · exact valid_of_ofText?
  · intro valid
    rw [ofText?, read_of_spells (spells_iff.mpr rfl) valid]

/-- Writing what was read brings a text into its normal form, which is read alike. -/
theorem ofText?_text_of_ofText? {text : String} {datetime : Datetime}
    (found : ofText? text = some datetime) : ofText? datetime.text = some datetime :=
  ofText?_text_eq_some_iff.mpr (valid_of_ofText? found)

example : (ofText? "1979-05-27 07:32:00.250-07:00").map text =
    some "1979-05-27T07:32:00.25-07:00" := by
  decide +kernel

end Datetime

end Overlay.Toml
