import Overlay.Toml.Scalar
import Overlay.Toml.Table

/-!
# TOML documents

A document is read as a sequence of statements, each on a line of its own, which
then build the tables of the document.  Arrays and inline tables nest at most 127
deep, and a dotted key has at most 127 parts.
-/

namespace Overlay.Toml

/-- The number of levels to which values nest, and of parts that a key may have. -/
def nestingLimit : Nat := 127

/-- Whether a character may stand in a key without quotes. -/
def isBare (char : Char) : Bool :=
  char.isAlphanum || char == '-' || char == '_'

/-- Reads one part of a key. -/
def readKeyPart : List Char → Option (String × List Char)
  | '"' :: rest => do
      let (found, rest) ← readBasic rest
      some (String.ofList found, rest)
  | '\'' :: rest => do
      let (found, rest) ← readLiteral rest
      some (String.ofList found, rest)
  | chars =>
      match chars.span isBare with
      | ([], _) => none
      | (found, rest) => some (String.ofList found, rest)

/-- Reads the parts of a key, with blanks around them.  `parts` bounds their
number. -/
def readKeyParts : (parts : Nat) → List Char → Option (List String × List Char)
  | 0, _ => none
  | parts + 1, chars => do
      let (first, rest) ← readKeyPart (skipSpaces chars)
      match skipSpaces rest with
      | '.' :: rest => do
          let (others, rest) ← readKeyParts parts rest
          some (first :: others, rest)
      | rest => some ([first], rest)

/-- Reads a key: the path to a table, and a name in it. -/
def readKey (chars : List Char) : Option ((List String × String) × List Char) := do
  let (parts, rest) ← readKeyParts nestingLimit chars
  let name ← parts.getLast?
  some ((parts.dropLast, name), rest)

/-- Drops blanks, line ends and comments.  `fuel` bounds the number of comments. -/
def skipComments : (fuel : Nat) → List Char → List Char
  | 0, chars => chars
  | fuel + 1, chars =>
      match skipLines chars with
      | '#' :: rest => skipComments fuel (rest.dropWhile isPlain)
      | rest => rest

/-- Drops blanks, line ends and comments. -/
def skipFiller (chars : List Char) : List Char := skipComments (chars.length + 1) chars

/-- Reads the items of an array up to its closing bracket.  A comma may follow the
last item.  `fuel` bounds the number of items. -/
def readItems (item : List Char → Option (Value × List Char)) :
    (fuel : Nat) → List Char → Option (List Value × List Char)
  | 0, _ => none
  | fuel + 1, chars =>
      match skipFiller chars with
      | ']' :: rest => some ([], rest)
      | start => do
          let (first, rest) ← item start
          match skipFiller rest with
          | ',' :: rest => do
              let (others, rest) ← readItems item fuel rest
              some (first :: others, rest)
          | ']' :: rest => some ([first], rest)
          | _ => none

/-- Reads an assignment with `value` for what follows the equals sign. -/
def readAssignment (value : List Char → Option (Value × List Char)) (chars : List Char) :
    Option (((List String × String) × Value) × List Char) := do
  let (key, rest) ← readKey chars
  match rest with
  | '=' :: rest => do
      let (found, rest) ← value (skipSpaces rest)
      some ((key, found), rest)
  | _ => none

/-- Reads the assignments of an inline table, of which there is at least one, up to
its closing brace.  `fuel` bounds their number. -/
def readPairs (value : List Char → Option (Value × List Char)) :
    (fuel : Nat) → List Char →
      Option (List ((List String × String) × Value) × List Char)
  | 0, _ => none
  | fuel + 1, chars => do
      let (first, rest) ← readAssignment value chars
      match skipSpaces rest with
      | ',' :: rest => do
          let (others, rest) ← readPairs value fuel rest
          some (first :: others, rest)
      | '}' :: rest => some ([first], rest)
      | _ => none

/-- Reads an inline table after its opening brace. -/
def readInlineTable (value : List Char → Option (Value × List Char)) (chars : List Char) :
    Option (Value × List Char) :=
  match skipSpaces chars with
  | '}' :: rest => some (.table [], rest)
  | start => do
      let (pairs, rest) ← readPairs value (start.length + 1) start
      let entries ← Node.assignAll [] pairs
      some (.table (Node.toEntries entries), rest)

/-- Reads a value in which others nest at most `depth` deep. -/
def readValue : (depth : Nat) → List Char → Option (Value × List Char)
  | 0, chars => readScalar chars
  | depth + 1, '[' :: rest => do
      let (items, rest) ← readItems (readValue depth) (rest.length + 1) rest
      some (.array items, rest)
  | depth + 1, '{' :: rest => readInlineTable (readValue depth) rest
  | _ + 1, chars => readScalar chars

/-- A statement of a document. -/
inductive Statement where
  | assignment (path : List String) (name : String) (value : Value)
  | header (path : List String) (name : String)
  | element (path : List String) (name : String)

/-- Takes the end of a statement: blanks, perhaps a comment, and the end of the
line or of the document. -/
def endOfLine (chars : List Char) : Option (List Char) :=
  let rest :=
    match skipSpaces chars with
    | '#' :: comment => comment.dropWhile isPlain
    | rest => rest
  match rest with
  | [] => some []
  | _ => newline? rest

/-- Reads a statement together with the end of its line. -/
def readStatement : List Char → Option (Statement × List Char)
  | '[' :: '[' :: rest => do
      let ((path, name), rest) ← readKey rest
      match rest with
      | ']' :: ']' :: rest => some (.element path name, ← endOfLine rest)
      | _ => none
  | '[' :: rest => do
      let ((path, name), rest) ← readKey rest
      match rest with
      | ']' :: rest => some (.header path name, ← endOfLine rest)
      | _ => none
  | chars => do
      let (((path, name), value), rest) ← readAssignment (readValue nestingLimit) chars
      some (.assignment path name value, ← endOfLine rest)

/-- Reads the statements of a document.  `fuel` bounds the number of lines. -/
def readStatements : (fuel : Nat) → List Char → Option (List Statement)
  | 0, _ => none
  | fuel + 1, chars =>
      match skipSpaces chars with
      | [] => some []
      | '#' :: rest => do readStatements fuel (← endOfLine ('#' :: rest))
      | '\n' :: rest => readStatements fuel rest
      | '\r' :: rest => do readStatements fuel (← newline? ('\r' :: rest))
      | start => do
          let (statement, rest) ← readStatement start
          let others ← readStatements fuel rest
          some (statement :: others)

/-- The assignments before the next header, and the rest. -/
def leadingAssignments :
    List Statement → List ((List String × String) × Value) × List Statement
  | .assignment path name value :: rest =>
      let (others, rest) := leadingAssignments rest
      (((path, name), value) :: others, rest)
  | statements => ([], statements)

theorem length_leadingAssignments_le (statements : List Statement) :
    (leadingAssignments statements).2.length ≤ statements.length := by
  fun_induction leadingAssignments statements with
  | case1 path name value rest others left equal ih =>
      simp only [equal] at ih
      simp only [List.length_cons]
      omega
  | case2 statements => exact Nat.le_refl _

/-- Adds the tables of all headers, each with the assignments that follow it. -/
def addSections (entries : Nodes) (statements : List Statement) : Option Nodes :=
  match statements with
  | [] => some entries
  | .assignment .. :: _ => none
  | .header path name :: rest => do
      let extended ← Node.changeAt false
        (fun _ inner => Node.openTable name (leadingAssignments rest).1 inner)
        path .header entries
      addSections extended (leadingAssignments rest).2
  | .element path name :: rest => do
      let extended ← Node.changeAt false
        (fun _ inner => Node.openElement name (leadingAssignments rest).1 inner)
        path .header entries
      addSections extended (leadingAssignments rest).2
termination_by statements.length
decreasing_by
  all_goals
    have := length_leadingAssignments_le rest
    simp only [List.length_cons]
    omega

/-- The entries of the table that a document spells.  A byte order mark at its
start has no meaning. -/
def parse? (text : String) : Option (List (String × Value)) := do
  let chars :=
    match text.toList with
    | '\ufeff' :: rest => rest
    | chars => chars
  let statements ← readStatements (chars.length + 1) chars
  let entries ← Node.assignAll [] (leadingAssignments statements).1
  let entries ← addSections entries (leadingAssignments statements).2
  some (Node.toEntries entries)

end Overlay.Toml
