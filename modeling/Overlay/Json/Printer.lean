import Overlay.Json.Basic
import Overlay.Text.Quoted

/-!
# Writing JSON

Documents are written over several lines, indented by two blanks, with empty
arrays and objects kept on one line.  A string escapes its quotes, backslashes
and control characters and nothing else.
-/

namespace Overlay.Json

/-- The escape of a control character without a letter of its own. -/
def controlEscape (char : Char) : List Char :=
  ['\\', 'u', '0', '0', Nat.digitChar (char.toNat / 16), Nat.digitChar (char.toNat % 16)]

/-- One character inside a string. -/
def escapeChar (char : Char) : List Char :=
  match char with
  | '"' => ['\\', '"']
  | '\\' => ['\\', '\\']
  | '\x08' => ['\\', 'b']
  | '\x0c' => ['\\', 'f']
  | '\n' => ['\\', 'n']
  | '\r' => ['\\', 'r']
  | '\t' => ['\\', 't']
  | _ => if char.toNat < 0x20 then controlEscape char else [char]

/-- A string with its quotes. -/
def printText : Text → List Char
  | .plain value => '"' :: (value.toList.flatMap escapeChar ++ ['"'])
  | .unpaired => ['"', '\\', 'u', 'd', '8', '0', '0', '"']

/-- A new line, indented. -/
def newLine (depth : Nat) : List Char := '\n' :: List.replicate (2 * depth) ' '

mutual

/-- A document, with its first line already indented. -/
def print (depth : Nat) : Json → List Char
  | .null => ['n', 'u', 'l', 'l']
  | .bool true => ['t', 'r', 'u', 'e']
  | .bool false => ['f', 'a', 'l', 's', 'e']
  | .number spelling => spelling.toList
  | .string text => printText text
  | .array [] => ['[', ']']
  | .array (first :: rest) =>
      '[' :: (newLine (depth + 1) ++ print (depth + 1) first ++
        (printItems (depth + 1) rest ++ (newLine depth ++ [']'])))
  | .object [] => ['{', '}']
  | .object ((name, value) :: rest) =>
      '{' :: (newLine (depth + 1) ++ printText name ++ (':' :: ' ' :: print (depth + 1) value) ++
        (printMembers (depth + 1) rest ++ (newLine depth ++ ['}'])))

/-- Further items, each after a comma. -/
def printItems (depth : Nat) : List Json → List Char
  | [] => []
  | item :: rest => ',' :: (newLine depth ++ print depth item ++ printItems depth rest)

/-- Further members, each after a comma. -/
def printMembers (depth : Nat) : List (Text × Json) → List Char
  | [] => []
  | (name, value) :: rest =>
      ',' :: (newLine depth ++ printText name ++ (':' :: ' ' :: print depth value) ++
        printMembers depth rest)

end

/-- The document as a text. -/
def render (json : Json) : String := String.ofList (json.print 0)

end Overlay.Json
