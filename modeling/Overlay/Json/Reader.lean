import Overlay.Json.Basic
import Overlay.Text.Hexadecimal

/-!
# Reading JSON

A reader takes characters from the front of a list and hands on what is left.
The grammar is the strict one: no comments, no trailing commas, no leading zeros,
no control characters inside strings, and nothing but blanks after the document.
-/

namespace Overlay.Json

/-- Drops the four blank characters of JSON. -/
def skipBlanks : List Char → List Char :=
  List.dropWhile fun char => char = ' ' ∨ char = '\n' ∨ char = '\t' ∨ char = '\r'

/-- The code unit spelled by four hexadecimal digits. -/
def unit? (first second third fourth : Char) : Option Nat :=
  Overlay.Text.ofHexadecimal? [first, second, third, fourth]

/-- The character that stands for itself or for a control character after a
backslash. -/
def escaped? : Char → Option Char
  | '"' => some '"'
  | '\\' => some '\\'
  | '/' => some '/'
  | 'b' => some '\x08'
  | 'f' => some '\x0c'
  | 'n' => some '\n'
  | 'r' => some '\r'
  | 't' => some '\t'
  | _ => none

/-- Reads the inside of a string up to and including the closing quote, as code
points and code units. -/
def units : List Char → Option (List Nat × List Char)
  | '"' :: rest => some ([], rest)
  | '\\' :: 'u' :: first :: second :: third :: fourth :: rest => do
      let unit ← unit? first second third fourth
      let (others, rest) ← units rest
      some (unit :: others, rest)
  | '\\' :: char :: rest => do
      let char ← escaped? char
      let (others, rest) ← units rest
      some (char.toNat :: others, rest)
  | char :: rest =>
      if char.toNat < 0x20 then none
      else do
        let (others, rest) ← units rest
        some (char.toNat :: others, rest)
  | [] => none

/-- Whether a code unit is the first half of a surrogate pair. -/
def isHigh (unit : Nat) : Bool := 0xd800 ≤ unit && unit < 0xdc00

/-- Whether a code unit is the second half of a surrogate pair. -/
def isLow (unit : Nat) : Bool := 0xdc00 ≤ unit && unit < 0xe000

/-- Joins surrogate pairs; half a pair alone has no character. -/
def joinPairs : List Nat → Option (List Char)
  | [] => some []
  | [unit] => if isHigh unit || isLow unit then none else some [Char.ofNat unit]
  | high :: low :: rest =>
      if isHigh high then
        if isLow low then
          (joinPairs rest).map
            (Char.ofNat (0x10000 + (high - 0xd800) * 0x400 + (low - 0xdc00)) :: ·)
        else none
      else if isLow high then none
      else (joinPairs (low :: rest)).map (Char.ofNat high :: ·)

/-- The text spelled by code points and code units. -/
def textOf (units : List Nat) : Text :=
  match joinPairs units with
  | some chars => .plain (String.ofList chars)
  | none => .unpaired

/-- Reads a string whose opening quote has been taken. -/
def readText (chars : List Char) : Option (Text × List Char) := do
  let (units, rest) ← units chars
  some (textOf units, rest)

/-- The digits at the front. -/
def digits (chars : List Char) : List Char × List Char := chars.span Char.isDigit

/-- Reads one digit or more. -/
def someDigits (chars : List Char) : Option (List Char × List Char) :=
  match digits chars with
  | ([], _) => none
  | found => some found

/-- Reads digits of which the first is not a zero, or a zero alone. -/
def readWhole : List Char → Option (List Char × List Char)
  | '0' :: rest => some (['0'], rest)
  | chars => someDigits chars

/-- Reads the part of a number after a point, if there is one. -/
def readFraction : List Char → Option (List Char × List Char)
  | '.' :: rest => do
      let (found, rest) ← someDigits rest
      some ('.' :: found, rest)
  | chars => some ([], chars)

/-- Reads an exponent after its letter. -/
def readExponentDigits (letter : Char) : List Char → Option (List Char × List Char)
  | '+' :: rest => do
      let (found, rest) ← someDigits rest
      some (letter :: '+' :: found, rest)
  | '-' :: rest => do
      let (found, rest) ← someDigits rest
      some (letter :: '-' :: found, rest)
  | rest => do
      let (found, rest) ← someDigits rest
      some (letter :: found, rest)

/-- Reads the exponent of a number, if there is one. -/
def readExponent : List Char → Option (List Char × List Char)
  | 'e' :: rest => readExponentDigits 'e' rest
  | 'E' :: rest => readExponentDigits 'E' rest
  | chars => some ([], chars)

/-- Reads a number without its sign. -/
def readUnsigned (chars : List Char) : Option (List Char × List Char) := do
  let (whole, rest) ← readWhole chars
  let (fraction, rest) ← readFraction rest
  let (exponent, rest) ← readExponent rest
  some (whole ++ fraction ++ exponent, rest)

/-- Reads a number, keeping its spelling. -/
def readNumber : List Char → Option (Json × List Char)
  | '-' :: rest => do
      let (spelling, rest) ← readUnsigned rest
      some (.number (String.ofList ('-' :: spelling)), rest)
  | chars => do
      let (spelling, rest) ← readUnsigned chars
      some (.number (String.ofList spelling), rest)

/-- Reads the rest of a word. -/
def readWord (word : List Char) (value : Json) (chars : List Char) :
    Option (Json × List Char) :=
  if word.isPrefixOf chars then some (value, chars.drop word.length) else none

/-- Reads items separated by commas up to the closing bracket.  `item` reads one
item, and `fuel` bounds their number. -/
def readItems {α : Type} (closing : Char) (item : List Char → Option (α × List Char)) :
    (fuel : Nat) → List Char → Option (List α × List Char)
  | 0, _ => none
  | fuel + 1, chars => do
      let (first, rest) ← item chars
      match skipBlanks rest with
      | ',' :: rest => do
          let (others, rest) ← readItems closing item fuel rest
          some (first :: others, rest)
      | char :: rest => if char = closing then some ([first], rest) else none
      | [] => none

/-- Reads what stands between brackets, of which the first has been taken. -/
def readGroup {α : Type} (closing : Char) (item : List Char → Option (α × List Char))
    (chars : List Char) : Option (List α × List Char) :=
  match skipBlanks chars with
  | char :: rest =>
      if char = closing then some ([], rest)
      else readItems closing item (rest.length + 1) (char :: rest)
  | [] => none

/-- Reads a member of an object, with `value` for what follows the colon. -/
def readMember (value : List Char → Option (Json × List Char)) (chars : List Char) :
    Option ((Text × Json) × List Char) :=
  match skipBlanks chars with
  | '"' :: rest => do
      let (name, rest) ← readText rest
      match skipBlanks rest with
      | ':' :: rest => do
          let (found, rest) ← value rest
          some ((name, found), rest)
      | _ => none
  | _ => none

/-- Reads a value.  `fuel` bounds the nesting. -/
def readValue : (fuel : Nat) → List Char → Option (Json × List Char)
  | 0, _ => none
  | fuel + 1, chars =>
      match skipBlanks chars with
      | '"' :: rest => do
          let (text, rest) ← readText rest
          some (.string text, rest)
      | '[' :: rest => do
          let (items, rest) ← readGroup ']' (readValue fuel) rest
          some (.array items, rest)
      | '{' :: rest => do
          let (members, rest) ← readGroup '}' (readMember (readValue fuel)) rest
          some (.object members, rest)
      | 'n' :: rest => readWord ['u', 'l', 'l'] .null rest
      | 't' :: rest => readWord ['r', 'u', 'e'] (.bool true) rest
      | 'f' :: rest => readWord ['a', 'l', 's', 'e'] (.bool false) rest
      | other => readNumber other

/-- The document that a text spells. -/
def parse? (text : String) : Option Json := do
  let chars := text.toList
  let (value, rest) ← readValue (chars.length + 1) chars
  if (skipBlanks rest).isEmpty then some value else none

end Overlay.Json
