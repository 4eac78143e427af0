import Overlay.Text.Hexadecimal
import Overlay.Text.Unseen

/-!
# Quoted text

Paths and names appear quoted in messages, so that everything in them shows.  A
quote and a backslash are escaped, as is every character that does not show by
itself; all else stands as it is.
-/

namespace Overlay.Text

/-- One character inside quotes. -/
def quotedChar (char : Char) : String :=
  match char with
  | '"' => "\\\""
  | '\\' => "\\\\"
  | '\n' => "\\n"
  | '\r' => "\\r"
  | '\t' => "\\t"
  | _ =>
      if char.toNat = 0 then "\\0"
      else if isUnseen char then
        "\\u\x7b" ++ hexadecimal char.toNat ++ "\x7d"
      else char.toString

/-- The text between double quotes. -/
def quoted (text : String) : String :=
  "\"" ++ String.join (text.toList.map quotedChar) ++ "\""

/-- Texts between square brackets. -/
def bracketed (items : List String) : String := "[" ++ ", ".intercalate items ++ "]"

/-- Quoted texts between square brackets. -/
def quotedList (texts : List String) : String := bracketed (texts.map quoted)

/-- An optional text, with the word that tells its presence. -/
def quotedOption : Option String → String
  | some text => "Some(" ++ quoted text ++ ")"
  | none => "None"

end Overlay.Text
