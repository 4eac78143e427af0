import Overlay.Binary64
import Overlay.Text.Hexadecimal
import Overlay.Toml.Value

/-!
# TOML strings and numbers

Readers for what a value is made of.  A reader takes characters from the front of
a list and hands on what is left, or fails.
-/

namespace Overlay.Toml

/-- Whether a character may stand in a comment or, unescaped, in a text: a tab or
anything that is no control character of ASCII. -/
def isPlain (char : Char) : Bool :=
  char == '\t' || (0x20 ≤ char.toNat && char.toNat != 0x7f)

/-- Drops blanks and tabs. -/
def skipSpaces : List Char → List Char :=
  List.dropWhile fun char => char = ' ' ∨ char = '\t'

/-- Takes a line end, if one is there. -/
def newline? : List Char → Option (List Char)
  | '\n' :: rest => some rest
  | '\r' :: '\n' :: rest => some rest
  | _ => none

/-- Drops blanks, tabs and line ends. -/
def skipLines : List Char → List Char
  | ' ' :: rest => skipLines rest
  | '\t' :: rest => skipLines rest
  | '\n' :: rest => skipLines rest
  | '\r' :: '\n' :: rest => skipLines rest
  | chars => chars

theorem length_skipLines_le (chars : List Char) :
    (skipLines chars).length ≤ chars.length := by
  fun_induction skipLines chars with
  | case1 rest ih => simp only [List.length_cons]; omega
  | case2 rest ih => simp only [List.length_cons]; omega
  | case3 rest ih => simp only [List.length_cons]; omega
  | case4 rest ih => simp only [List.length_cons]; omega
  | case5 chars => exact Nat.le_refl _

/-- The character with a code point, if there is one. -/
def charOf? (code : Nat) : Option Char :=
  if code.isValidChar then some (Char.ofNat code) else none

/-- The character that a letter stands for after a backslash. -/
def escapedLetter? : Char → Option Char
  | 'b' => some '\x08'
  | 'f' => some '\x0c'
  | 'n' => some '\n'
  | 'r' => some '\r'
  | 't' => some '\t'
  | '"' => some '"'
  | '\\' => some '\\'
  | _ => none

/-- Reads an escape after its backslash. -/
def readEscape : List Char → Option (Char × List Char)
  | 'u' :: rest => do
      if rest.length < 4 then none
      else
        let code ← Text.ofHexadecimal? (rest.take 4)
        some (← charOf? code, rest.drop 4)
  | 'U' :: rest => do
      if rest.length < 8 then none
      else
        let code ← Text.ofHexadecimal? (rest.take 8)
        some (← charOf? code, rest.drop 8)
  | letter :: rest => do some (← escapedLetter? letter, rest)
  | [] => none

theorem length_of_readEscape {chars rest : List Char} {char : Char}
    (found : readEscape chars = some (char, rest)) : rest.length < chars.length := by
  unfold readEscape at found
  split at found
  · simp only [Option.bind_eq_bind] at found
    split at found
    · simp at found
    · simp only [Option.bind_eq_some_iff, Option.some.injEq, Prod.mk.injEq] at found
      obtain ⟨_, _, _, _, _, equal⟩ := found
      subst equal
      simp only [List.length_drop, List.length_cons]
      omega
  · simp only [Option.bind_eq_bind] at found
    split at found
    · simp at found
    · simp only [Option.bind_eq_some_iff, Option.some.injEq, Prod.mk.injEq] at found
      obtain ⟨_, _, _, _, _, equal⟩ := found
      subst equal
      simp only [List.length_drop, List.length_cons]
      omega
  · simp only [Option.bind_eq_bind, Option.bind_eq_some_iff, Option.some.injEq,
      Prod.mk.injEq] at found
    obtain ⟨_, _, _, equal⟩ := found
    subst equal
    simp only [List.length_cons]
    omega
  · simp at found

/-- Reads the inside of a text in double quotes up to its closing quote. -/
def readBasic (chars : List Char) : Option (List Char × List Char) :=
  match chars with
  | '"' :: rest => some ([], rest)
  | '\\' :: rest =>
      match found : readEscape rest with
      | some (char, after) =>
          have := length_of_readEscape found
          (readBasic after).map fun (others, after) => (char :: others, after)
      | none => none
  | char :: rest =>
      if isPlain char then do
        let (others, rest) ← readBasic rest
        some (char :: others, rest)
      else none
  | [] => none
termination_by chars.length
decreasing_by
  · simp only [List.length_cons]
    omega
  · simp

/-- Reads the inside of a text in single quotes up to its closing quote. -/
def readLiteral : List Char → Option (List Char × List Char)
  | '\'' :: rest => some ([], rest)
  | char :: rest =>
      if isPlain char then do
        let (others, rest) ← readLiteral rest
        some (char :: others, rest)
      else none
  | [] => none

/-- Whether the rest of a line holds no more than blanks, and a line does end. -/
def endsLine (chars : List Char) : Bool := (newline? (skipSpaces chars)).isSome

/-- Reads the inside of a text in triple double quotes.  Up to two quotes may stand
before the closing three.  A backslash at the end of a line takes all blanks and
line ends that follow with it. -/
def readBasicLines (chars : List Char) : Option (List Char × List Char) :=
  match chars with
  | '"' :: '"' :: '"' :: '"' :: '"' :: rest => some (['"', '"'], rest)
  | '"' :: '"' :: '"' :: '"' :: rest => some (['"'], rest)
  | '"' :: '"' :: '"' :: rest => some ([], rest)
  | '\\' :: rest =>
      if endsLine rest then
        have := length_skipLines_le rest
        readBasicLines (skipLines rest)
      else
        match found : readEscape rest with
        | some (char, after) =>
            have := length_of_readEscape found
            (readBasicLines after).map fun (others, after) => (char :: others, after)
        | none => none
  | '\r' :: '\n' :: rest => do
      let (others, rest) ← readBasicLines rest
      some ('\n' :: others, rest)
  | char :: rest =>
      if isPlain char || char == '\n' then do
        let (others, rest) ← readBasicLines rest
        some (char :: others, rest)
      else none
  | [] => none
termination_by chars.length
decreasing_by
  all_goals
    simp only [List.length_cons]
    omega

/-- Reads the inside of a text in triple single quotes. -/
def readLiteralLines : List Char → Option (List Char × List Char)
  | '\'' :: '\'' :: '\'' :: '\'' :: '\'' :: rest => some (['\'', '\''], rest)
  | '\'' :: '\'' :: '\'' :: '\'' :: rest => some (['\''], rest)
  | '\'' :: '\'' :: '\'' :: rest => some ([], rest)
  | '\r' :: '\n' :: rest => do
      let (others, rest) ← readLiteralLines rest
      some ('\n' :: others, rest)
  | char :: rest =>
      if isPlain char || char == '\n' then do
        let (others, rest) ← readLiteralLines rest
        some (char :: others, rest)
      else none
  | [] => none

/-- The characters after a line end directly at the front. -/
def dropNewline (chars : List Char) : List Char := (newline? chars).getD chars

/-- Reads a text of any of the four kinds. -/
def readText : List Char → Option (String × List Char)
  | '"' :: '"' :: '"' :: rest => do
      let (found, rest) ← readBasicLines (dropNewline rest)
      some (String.ofList found, rest)
  | '"' :: rest => do
      let (found, rest) ← readBasic rest
      some (String.ofList found, rest)
  | '\'' :: '\'' :: '\'' :: rest => do
      let (found, rest) ← readLiteralLines (dropNewline rest)
      some (String.ofList found, rest)
  | '\'' :: rest => do
      let (found, rest) ← readLiteral rest
      some (String.ofList found, rest)
  | _ => none

/-- The value of a digit below a base. -/
def digitBelow? (base : Nat) (char : Char) : Option Nat := do
  let value ← Text.hexValue? char
  if value < base then some value else none

/-- Reads further digits of a base.  An underscore stands between two digits. -/
def moreDigits (base : Nat) : List Char → Option (List Nat × List Char)
  | '_' :: char :: rest => do
      let value ← digitBelow? base char
      let (others, rest) ← moreDigits base rest
      some (value :: others, rest)
  | ['_'] => none
  | char :: rest =>
      match digitBelow? base char with
      | some value => do
          let (others, rest) ← moreDigits base rest
          some (value :: others, rest)
      | none => some ([], char :: rest)
  | [] => some ([], [])

/-- Reads one digit or more, with underscores between them. -/
def someDigits (base : Nat) : List Char → Option (List Nat × List Char)
  | char :: rest => do
      let value ← digitBelow? base char
      let (others, rest) ← moreDigits base rest
      some (value :: others, rest)
  | [] => none

/-- Reads a whole number in base ten, which has no leading zeros. -/
def readWhole : List Char → Option (List Nat × List Char)
  | '0' :: rest => some ([0], rest)
  | chars => someDigits 10 chars

/-- The integer, if it fits into 64 bits with a sign. -/
def integer? (value : Int) : Option Value :=
  if -0x8000000000000000 ≤ value ∧ value < 0x8000000000000000 then some (.integer value)
  else none

/-- Reads the digits of an exponent after its sign. -/
def readExponentDigits (sign : Int) (chars : List Char) : Option (Int × List Char) := do
  let (digits, rest) ← someDigits 10 chars
  some (sign * (Text.ofDigits 10 digits : Nat), rest)

/-- Reads an exponent after its letter. -/
def readExponent : List Char → Option (Int × List Char)
  | '+' :: rest => readExponentDigits 1 rest
  | '-' :: rest => readExponentDigits (-1) rest
  | chars => readExponentDigits 1 chars

/-- A float from its digits, the last `places` of them after the point.  A positive
float may not be too large. -/
def float? (negative : Bool) (digits : List Nat) (places : Nat) (exponent : Int) :
    Option Value :=
  let bits := Binary64.ofDecimal (Text.ofDigits 10 digits) (exponent - places)
  if negative then some (.float (Binary64.negate bits))
  else if bits = Binary64.infinity then none
  else some (.float bits)

/-- Reads what makes a number a float, if anything does. -/
def readAfterWhole (negative : Bool) (whole : List Nat) :
    List Char → Option (Value × List Char)
  | '.' :: rest => do
      let (fraction, rest) ← someDigits 10 rest
      let (exponent, rest) ←
        match rest with
        | 'e' :: rest => readExponent rest
        | 'E' :: rest => readExponent rest
        | rest => some (0, rest)
      some (← float? negative (whole ++ fraction) fraction.length exponent, rest)
  | 'e' :: rest => do
      let (exponent, rest) ← readExponent rest
      some (← float? negative whole 0 exponent, rest)
  | 'E' :: rest => do
      let (exponent, rest) ← readExponent rest
      some (← float? negative whole 0 exponent, rest)
  | rest => do
      let magnitude : Int := (Text.ofDigits 10 whole : Nat)
      some (← integer? (if negative then -magnitude else magnitude), rest)

/-- Reads a number after its sign. -/
def readSigned (negative : Bool) : List Char → Option (Value × List Char)
  | 'i' :: 'n' :: 'f' :: rest =>
      some (.float (if negative then Binary64.negate Binary64.infinity else Binary64.infinity),
        rest)
  | 'n' :: 'a' :: 'n' :: rest =>
      some (.float
        (if negative then Binary64.negate Binary64.notANumber else Binary64.notANumber), rest)
  | chars => do
      let (whole, rest) ← readWhole chars
      readAfterWhole negative whole rest

/-- Reads an integer in a base other than ten, after the letter of the base. -/
def readInBase (base : Nat) (chars : List Char) : Option (Value × List Char) := do
  let (digits, rest) ← someDigits base chars
  some (← integer? (Text.ofDigits base digits : Nat), rest)

/-- Reads a number. -/
def readNumber : List Char → Option (Value × List Char)
  | '+' :: rest => readSigned false rest
  | '-' :: rest => readSigned true rest
  | '0' :: 'x' :: rest => readInBase 16 rest
  | '0' :: 'o' :: rest => readInBase 8 rest
  | '0' :: 'b' :: rest => readInBase 2 rest
  | chars => readSigned false chars

/-- Reads a value that contains no other. -/
def readScalar (chars : List Char) : Option (Value × List Char) :=
  match chars with
  | '"' :: _ => (readText chars).map fun (found, rest) => (.text found, rest)
  | '\'' :: _ => (readText chars).map fun (found, rest) => (.text found, rest)
  | 't' :: 'r' :: 'u' :: 'e' :: rest => some (.boolean true, rest)
  | 'f' :: 'a' :: 'l' :: 's' :: 'e' :: rest => some (.boolean false, rest)
  | _ =>
      match Datetime.read chars with
      | some (datetime, rest) => some (.datetime datetime, rest)
      | none => readNumber chars

end Overlay.Toml
