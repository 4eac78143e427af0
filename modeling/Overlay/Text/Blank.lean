/-!
# Blank text

A name made of blanks is as good as none.  Blank is every character with the
Unicode property White_Space, not only the blanks of ASCII.
-/

namespace Overlay.Text

/-- The characters with the property White_Space. -/
def isBlankChar (char : Char) : Bool :=
  let code := char.toNat
  (0x09 ≤ code && code ≤ 0x0d) || code == 0x20 || code == 0x85 || code == 0xa0 ||
    code == 0x1680 || (0x2000 ≤ code && code ≤ 0x200a) || code == 0x2028 ||
    code == 0x2029 || code == 0x202f || code == 0x205f || code == 0x3000

/-- Whether a text has no character but blanks. -/
def isBlank (text : String) : Bool := text.toList.all isBlankChar

/-- The characters without the blanks at either end. -/
def trimmed (chars : List Char) : List Char :=
  ((chars.dropWhile isBlankChar).reverse.dropWhile isBlankChar).reverse

/-- A letter of ASCII in lower case; every other character as it is. -/
def lowerAscii (char : Char) : Char :=
  if 'A' ≤ char ∧ char ≤ 'Z' then Char.ofNat (char.toNat + 32) else char

/-- The parts of a text between the occurrences of a character. -/
def splitAt (separator : Char) : List Char → List (List Char)
  | [] => [[]]
  | char :: rest =>
      if char = separator then [] :: splitAt separator rest
      else
        match splitAt separator rest with
        | [] => [[char]]
        | part :: parts => (char :: part) :: parts

end Overlay.Text
