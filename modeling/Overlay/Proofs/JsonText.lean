import Mathlib.Data.List.Basic
import Overlay.Json.Printer
import Overlay.Json.Reader

/-!
# What is written as JSON is read back

A document without numbers, all of whose strings spell characters, is read back from the text
that is written for it.  Whatever a reader takes it takes from the front, so everything is
stated with a text behind it.  The bound on nesting and the one on the number of items never
count, since a text is longer than either.
-/

namespace Overlay.Json

/-! ## Strings -/

/-- One more code point in front of those that have been read. -/
def withUnit (code : Nat) (read : Option (List Nat × List Char)) :
    Option (List Nat × List Char) :=
  read.map fun (others, rest) => (code :: others, rest)

theorem bind_eq_withUnit (code : Nat) (read : Option (List Nat × List Char)) :
    (do
      let (others, rest) ← read
      some (code :: others, rest)) = withUnit code read := by
  cases read <;> rfl

theorem unit?_controlEscape : ∀ code < 0x20,
    unit? '0' '0' (Nat.digitChar (code / 16)) (Nat.digitChar (code % 16)) = some code := by
  decide

/-- A character without an escape is read as it stands. -/
theorem units_cons {char : Char} (quote : char ≠ '"') (backslash : char ≠ '\\')
    (visible : ¬ char.toNat < 0x20) (tail : List Char) :
    units (char :: tail) = withUnit char.toNat (units tail) := by
  rw [units.eq_4 char tail quote (fun _ _ _ _ _ same => absurd same backslash)
    (fun _ _ same => absurd same backslash), if_neg visible]
  exact bind_eq_withUnit _ _

/-- A character with a letter for its escape is read from the letter. -/
theorem units_escaped {letter char : Char} (spelled : escaped? letter = some char)
    (tail : List Char) :
    units ('\\' :: letter :: tail) = withUnit char.toNat (units tail) := by
  have other : letter ≠ 'u' := by
    rintro rfl
    cases spelled
  rw [units.eq_3 letter tail (fun _ _ _ _ _ same => absurd same other), spelled]
  exact bind_eq_withUnit _ _

theorem units_controlEscape {char : Char} (control : char.toNat < 0x20) (tail : List Char) :
    units (controlEscape char ++ tail) = withUnit char.toNat (units tail) := by
  rw [controlEscape, List.cons_append, List.cons_append, List.cons_append, List.cons_append,
    List.cons_append, List.cons_append, List.nil_append, units.eq_2,
    unit?_controlEscape char.toNat control]
  exact bind_eq_withUnit _ _

theorem units_escapeChar (char : Char) (tail : List Char) :
    units (escapeChar char ++ tail) = withUnit char.toNat (units tail) := by
  rw [escapeChar.eq_def]
  split
  case h_1 => exact units_escaped rfl tail
  case h_2 => exact units_escaped rfl tail
  case h_3 => exact units_escaped rfl tail
  case h_4 => exact units_escaped rfl tail
  case h_5 => exact units_escaped rfl tail
  case h_6 => exact units_escaped rfl tail
  case h_7 => exact units_escaped rfl tail
  case h_8 quote backslash _ _ _ _ _ =>
    split
    · next control => exact units_controlEscape control tail
    · next visible => exact units_cons quote backslash visible tail

/-- What stands between quotes is read back up to the closing quote. -/
theorem units_escaped_append (chars tail : List Char) :
    units (chars.flatMap escapeChar ++ '"' :: tail) = some (chars.map Char.toNat, tail) := by
  induction chars with
  | nil => exact units.eq_1 tail
  | cons char rest ih =>
      rw [List.flatMap_cons, List.append_assoc, units_escapeChar, ih]
      rfl

/-- A character is no half of a surrogate pair. -/
theorem not_isHigh_or_isLow (char : Char) : (isHigh char.toNat || isLow char.toNat) = false := by
  have valid : char.toNat < 0xd800 ∨ 0xdfff < char.toNat := char.valid.imp id And.left
  simp only [isHigh, isLow, Bool.or_eq_false_iff, Bool.and_eq_false_iff, decide_eq_false_iff_not]
  omega

/-- Code points of characters spell these characters. -/
theorem joinPairs_map_toNat (chars : List Char) :
    joinPairs (chars.map Char.toNat) = some chars := by
  induction chars with
  | nil => rfl
  | cons char rest ih =>
      have single := not_isHigh_or_isLow char
      cases rest with
      | nil =>
        rw [List.map_cons, List.map_nil, joinPairs, single]
        simp only [Bool.false_eq_true, if_false, Char.ofNat_toNat]
      | cons next others =>
        obtain ⟨high, low⟩ := Bool.or_eq_false_iff.mp single
        rw [List.map_cons, List.map_cons] at *
        rw [joinPairs, high, low, ih]
        simp only [Bool.false_eq_true, if_false, Char.ofNat_toNat, Option.map_some]

theorem readText_printText (value : String) (tail : List Char) :
    readText (value.toList.flatMap escapeChar ++ '"' :: tail) = some (.plain value, tail) := by
  rw [readText, units_escaped_append]
  simp only [Option.bind_eq_bind, Option.bind_some, textOf, joinPairs_map_toNat,
    String.ofList_toList]

/-! ## Blanks -/

/-- Nothing but blanks. -/
def Blank (chars : List Char) : Prop :=
  ∀ char ∈ chars, char = ' ' ∨ char = '\n' ∨ char = '\t' ∨ char = '\r'

theorem blank_nil : Blank [] := fun _ none => (List.not_mem_nil none).elim

theorem blank_newLine (depth : Nat) : Blank (newLine depth) := by
  intro char member
  rcases List.mem_cons.mp member with rfl | inside
  · exact .inr (.inl rfl)
  · exact .inl (List.eq_of_mem_replicate inside)

theorem skipBlanks_append {blanks : List Char} (blank : Blank blanks) (chars : List Char) :
    skipBlanks (blanks ++ chars) = skipBlanks chars :=
  List.dropWhile_append_of_pos fun char member => decide_eq_true (blank char member)

/-- A character that is no blank ends the blanks. -/
def Visible (char : Char) : Prop := ∀ after, skipBlanks (char :: after) = char :: after

theorem readValue_blanks {blanks : List Char} (blank : Blank blanks) (fuel : Nat)
    (chars : List Char) : readValue fuel (blanks ++ chars) = readValue fuel chars := by
  cases fuel with
  | zero => rfl
  | succ fuel => rw [readValue, readValue, skipBlanks_append blank]

theorem readMember_blanks {blanks : List Char} (blank : Blank blanks)
    (value : List Char → Option (Json × List Char)) (chars : List Char) :
    readMember value (blanks ++ chars) = readMember value chars := by
  rw [readMember, readMember, skipBlanks_append blank]

/-! ## Groups -/

section Groups

variable {α : Type} {closing : Char} {item : List Char → Option (α × List Char)}
  {body : α → List Char}

/-- A reader reads back what is written for an item, whatever blanks stand before it and
whatever follows it. -/
def ReadsBack (item : List Char → Option (α × List Char)) (body : α → List Char) (each : α) :
    Prop :=
  ∀ blanks, Blank blanks → ∀ more, item (blanks ++ (body each ++ more)) = some (each, more)

/-- Items in a row, each after a comma and blanks. -/
def furtherItems (body : α → List Char) (gap : List Char) (items : List α) : List Char :=
  items.flatMap fun each => ',' :: (gap ++ body each)

theorem length_le_furtherItems (body : α → List Char) (gap : List Char) (items : List α) :
    items.length ≤ (furtherItems body gap items).length := by
  induction items with
  | nil => exact Nat.zero_le _
  | cons item rest ih =>
      rw [furtherItems] at ih
      rw [furtherItems, List.flatMap_cons, List.length_append, List.length_cons, List.length_cons]
      omega

theorem readItems_written (visible : Visible closing) (comma : closing ≠ ',')
    {gap trail : List Char} (gapBlank : Blank gap) (trailBlank : Blank trail) {first : α}
    {rest : List α} (reads : ∀ each ∈ first :: rest, ReadsBack item body each) {fuel : Nat}
    (enough : rest.length < fuel) {lead : List Char} (leadBlank : Blank lead)
    (after : List Char) :
    readItems closing item fuel (lead ++ (body first ++ (furtherItems body gap rest ++
      (trail ++ closing :: after)))) = some (first :: rest, after) := by
  induction rest generalizing first fuel lead with
  | nil =>
      obtain ⟨fuel, rfl⟩ := Nat.exists_eq_succ_of_ne_zero (Nat.ne_zero_of_lt enough)
      rw [readItems, reads first List.mem_cons_self lead leadBlank]
      simp only [Option.bind_eq_bind, Option.bind_some, furtherItems, List.flatMap_nil,
        List.nil_append, skipBlanks_append trailBlank, visible after]
      exact if_pos trivial
  | cons second others ih =>
      obtain ⟨fuel, rfl⟩ := Nat.exists_eq_succ_of_ne_zero (Nat.ne_zero_of_lt enough)
      obtain ⟨own, later⟩ := List.forall_mem_cons.mp reads
      have further := ih later (Nat.lt_of_succ_lt_succ enough) gapBlank
      have comma : Visible ',' := fun _ => rfl
      rw [readItems, own lead leadBlank]
      simp only [Option.bind_eq_bind, Option.bind_some, furtherItems, List.flatMap_cons,
        List.cons_append, List.append_assoc, comma _]
      rw [furtherItems] at further
      rw [further]
      rfl

/-- What is written for a group is read back. -/
theorem readGroup_written (visible : Visible closing) (comma : closing ≠ ',')
    {lead gap trail : List Char} (leadBlank : Blank lead) (gapBlank : Blank gap)
    (trailBlank : Blank trail) {first : α} {rest : List α}
    (reads : ∀ each ∈ first :: rest, ReadsBack item body each) {char : Char} {tail : List Char}
    (shape : body first = char :: tail) (begins : Visible char) (opens : char ≠ closing)
    (after : List Char) :
    readGroup closing item (lead ++ (body first ++ (furtherItems body gap rest ++
      (trail ++ closing :: after)))) = some (first :: rest, after) := by
  have enough : rest.length <
      (tail ++ (furtherItems body gap rest ++ (trail ++ closing :: after))).length + 1 := by
    have long := length_le_furtherItems body gap rest
    simp only [List.length_append]
    omega
  have items := readItems_written visible comma gapBlank trailBlank reads enough blank_nil after
  rw [shape, List.cons_append, List.nil_append] at items
  rw [readGroup, skipBlanks_append leadBlank, shape, List.cons_append, begins]
  simp only [opens, if_false]
  exact items

end Groups

/-- Items that are read back one by one are read back together. -/
theorem mapM_map_eq_some {α β γ : Type} {write : α → β} {read : β → Option γ} {result : α → γ}
    {items : List α} (each : ∀ item ∈ items, read (write item) = some (result item)) :
    (items.map write).mapM read = some (items.map result) := by
  induction items with
  | nil => rfl
  | cons item rest ih =>
      obtain ⟨own, others⟩ := List.forall_mem_cons.mp each
      rw [List.map_cons, List.mapM_cons, own, ih others]
      rfl

/-! ## Documents -/

/-- Documents without numbers, all of whose strings spell characters. -/
inductive Plain : Json → Prop where
  | null : Plain .null
  | bool (value : Bool) : Plain (.bool value)
  | text (value : String) : Plain (.text value)
  | array {items : List Json} (each : ∀ item ∈ items, Plain item) : Plain (.array items)
  | object {members : List (Text × Json)}
      (names : ∀ member ∈ members, ∃ name, member.1 = .plain name)
      (values : ∀ member ∈ members, Plain member.2) : Plain (.object members)

theorem plain_record {members : List (String × Json)}
    (values : ∀ member ∈ members, Plain member.2) :
    Plain (.record members) := by
  refine .object ?_ ?_
  · intro member listed
    obtain ⟨source, _, rfl⟩ := List.mem_map.mp listed
    exact ⟨source.1, rfl⟩
  · intro member listed
    obtain ⟨source, inside, rfl⟩ := List.mem_map.mp listed
    exact values source inside

theorem plain_optionalText (text : Option String) : (optionalText text).Plain := by
  cases text with
  | none => exact .null
  | some text => exact .text text

/-- What is written for a member of an object. -/
def printMember (depth : Nat) (member : Text × Json) : List Char :=
  printText member.1 ++ (':' :: ' ' :: print depth member.2)

theorem printItems_eq (depth : Nat) (items : List Json) :
    printItems depth items = furtherItems (print depth) (newLine depth) items := by
  induction items with
  | nil => rw [printItems]; rfl
  | cons item rest ih =>
      rw [printItems, ih, furtherItems, furtherItems, List.flatMap_cons, List.cons_append]

theorem printMembers_eq (depth : Nat) (members : List (Text × Json)) :
    printMembers depth members = furtherItems (printMember depth) (newLine depth) members := by
  induction members with
  | nil => rw [printMembers]; rfl
  | cons member rest ih =>
      obtain ⟨name, value⟩ := member
      rw [printMembers, ih, furtherItems, furtherItems, List.flatMap_cons, List.cons_append,
        printMember]
      simp only [List.append_assoc]

/-- What is written for a document begins neither with a blank nor with a closing bracket. -/
theorem print_begins {json : Json} (plain : Plain json) (depth : Nat) :
    ∃ char tail, print depth json = char :: tail ∧ Visible char ∧ char ≠ ']' := by
  cases plain with
  | null => exact ⟨'n', ['u', 'l', 'l'], by rw [print], fun _ => rfl, by decide⟩
  | bool value =>
      cases value with
      | true => exact ⟨'t', ['r', 'u', 'e'], by rw [print], fun _ => rfl, by decide⟩
      | false => exact ⟨'f', ['a', 'l', 's', 'e'], by rw [print], fun _ => rfl, by decide⟩
  | text value => exact ⟨'"', _, by rw [Json.text, print, printText], fun _ => rfl, by decide⟩
  | @array items each =>
      cases items with
      | nil => exact ⟨'[', [']'], by rw [print], fun _ => rfl, by decide⟩
      | cons first rest => exact ⟨'[', _, by rw [print], fun _ => rfl, by decide⟩
  | @object members names values =>
      cases members with
      | nil => exact ⟨'{', ['}'], by rw [print], fun _ => rfl, by decide⟩
      | cons first rest => exact ⟨'{', _, by rw [print], fun _ => rfl, by decide⟩

theorem readMember_printMember {value : List Char → Option (Json × List Char)} {depth : Nat}
    {member : Text × Json} (named : ∃ name, member.1 = .plain name) {more : List Char}
    (read : value (' ' :: (print depth member.2 ++ more)) = some (member.2, more)) :
    readMember value (printMember depth member ++ more) = some (member, more) := by
  obtain ⟨⟨_, json⟩, name, rfl⟩ := member, named
  have quote : Visible '"' := fun _ => rfl
  have colon : Visible ':' := fun _ => rfl
  rw [readMember, printMember, printText, List.cons_append, List.cons_append, quote]
  simp only [List.append_assoc, List.cons_append, List.nil_append, readText_printText, colon _,
    Option.bind_eq_bind, Option.bind_some, read]

/-- What is written for an item is shorter than what is written for it and others. -/
theorem length_lt_of_mem {α : Type} (body : α → List Char) (gap : List Char) {first : α}
    {rest : List α} {each : α} (member : each ∈ first :: rest) :
    (body each).length < (body first ++ furtherItems body gap rest).length + 1 := by
  rcases List.mem_cons.mp member with rfl | later
  · rw [List.length_append]
    omega
  · obtain ⟨before, behind, rfl⟩ := List.append_of_mem later
    simp only [furtherItems, List.flatMap_append, List.flatMap_cons, List.length_append,
      List.length_cons]
    omega

/-- What is written for a document is read back, whatever follows it. -/
theorem readValue_print {json : Json} (plain : Plain json) (depth : Nat) {fuel : Nat}
    (enough : (print depth json).length < fuel) (after : List Char) :
    readValue fuel (print depth json ++ after) = some (json, after) := by
  obtain ⟨fuel, rfl⟩ := Nat.exists_eq_succ_of_ne_zero (Nat.ne_zero_of_lt enough)
  induction plain generalizing depth fuel after with
  | null => rw [print]; rfl
  | bool value =>
      cases value with
      | true => rw [print]; rfl
      | false => rw [print]; rfl
  | text value =>
      have quote : Visible '"' := fun _ => rfl
      rw [Json.text, print, printText, List.cons_append, List.append_assoc, readValue, quote]
      simp only [List.singleton_append, readText_printText]
      rfl
  | @array items each ih =>
      have opening : Visible '[' := fun _ => rfl
      have closing : Visible ']' := fun _ => rfl
      cases items with
      | nil => rw [print]; rfl
      | cons first rest =>
        rw [print, printItems_eq] at enough ⊢
        have reads : ∀ item ∈ first :: rest,
            ReadsBack (readValue fuel) (print (depth + 1)) item := by
          intro item member blanks blank more
          have shorter := length_lt_of_mem (print (depth + 1)) (newLine (depth + 1)) member
          simp only [List.length_cons, List.length_append] at enough shorter
          obtain ⟨inner, rfl⟩ := Nat.exists_eq_succ_of_ne_zero (show fuel ≠ 0 by omega)
          rw [readValue_blanks blank, ih item member]
          omega
        obtain ⟨char, tail, shape, begins, opens⟩ :=
          print_begins (each first List.mem_cons_self) (depth + 1)
        have group := readGroup_written closing (by decide) (blank_newLine (depth + 1))
          (blank_newLine (depth + 1)) (blank_newLine depth) reads shape begins opens after
        rw [List.cons_append, readValue, opening]
        simp only [List.append_assoc, List.singleton_append, group]
        rfl
  | @object members names values ih =>
      have opening : Visible '{' := fun _ => rfl
      have closing : Visible '}' := fun _ => rfl
      have quote : Visible '"' := fun _ => rfl
      cases members with
      | nil => rw [print]; rfl
      | cons first rest =>
        rw [print, printMembers_eq] at enough ⊢
        have reads : ∀ member ∈ first :: rest,
            ReadsBack (readMember (readValue fuel)) (printMember (depth + 1)) member := by
          intro member listed blanks blank more
          have shorter := length_lt_of_mem (printMember (depth + 1)) (newLine (depth + 1)) listed
          simp only [List.length_cons, List.length_append, printMember] at enough shorter
          obtain ⟨inner, rfl⟩ := Nat.exists_eq_succ_of_ne_zero (show fuel ≠ 0 by omega)
          rw [readMember_blanks blank]
          apply readMember_printMember (names member listed)
          have blank : Blank [' '] := fun char same => .inl (List.mem_singleton.mp same)
          rw [← List.singleton_append, readValue_blanks blank, ih member listed]
          omega
        obtain ⟨name, named⟩ := names first List.mem_cons_self
        obtain ⟨tail, shape⟩ : ∃ tail, printMember (depth + 1) first = '"' :: tail :=
          ⟨_, by rw [printMember, named, printText, List.cons_append]⟩
        have group := readGroup_written closing (by decide) (blank_newLine (depth + 1))
          (blank_newLine (depth + 1)) (blank_newLine depth) reads shape quote (by decide) after
        rw [List.cons_append, readValue, opening]
        simp only [printMember, List.append_assoc, List.nil_append, List.cons_append] at group ⊢
        rw [group]
        rfl

/-- What is rendered is read back, also with blanks behind it. -/
theorem parse?_render {json : Json} (plain : Plain json) {blanks : List Char}
    (blank : Blank blanks) : parse? (json.render ++ String.ofList blanks) = some json := by
  have chars : (json.render ++ String.ofList blanks).toList = print 0 json ++ blanks := by
    rw [String.toList_append, render, String.toList_ofList, String.toList_ofList]
  have left : skipBlanks blanks = [] := by
    have none := skipBlanks_append blank []
    rw [List.append_nil] at none
    exact none
  have enough : (print 0 json).length < (print 0 json ++ blanks).length + 1 := by
    rw [List.length_append]
    omega
  rw [parse?, chars]
  simp only [Option.bind_eq_bind, readValue_print plain 0 enough, Option.bind_some, left]
  rfl

end Overlay.Json
