/-!
# Arguments

The arguments of the tool.  Options take a value, given in the same argument or in
the next one, and may come once.  Arguments are read in order, and the first one
that asks for the version or for help, or that is wrong, decides.
-/

namespace Overlay

/-- How the effective modules are printed. -/
inductive OutputFormat where
  | text
  | json
  deriving DecidableEq, Inhabited

/-- What the arguments say. -/
structure Arguments where
  config : Option String := none
  directory : Option String := none
  filter : Option String := none
  format : Option OutputFormat := none
  deriving DecidableEq, Inhabited

/-- What the arguments ask for. -/
inductive Request where
  | resolve (arguments : Arguments)
  | version
  | help
  deriving DecidableEq, Inhabited

/-- Why arguments cannot be understood. -/
inductive UsageFault where
  | unexpected (argument : String)
  | missingValue (option : String)
  | repeated (option : String)
  | invalidValue (option value : String)
  deriving DecidableEq, Inhabited

/-- The fault in words. -/
def UsageFault.message : UsageFault → String
  | .unexpected argument => s!"unexpected argument '{argument}'"
  | .missingValue option => s!"a value is required for '{option}'"
  | .repeated option => s!"the argument '{option}' cannot be used multiple times"
  | .invalidValue option value => s!"invalid value '{value}' for '{option}'"

namespace Arguments

/-- An option that takes a value. -/
inductive Valued where
  | config
  | directory
  | filter
  | format
  deriving DecidableEq, Inhabited

/-- The long name of an option. -/
def Valued.name : Valued → String
  | .config => "--config"
  | .directory => "--modules-dir"
  | .filter => "--log"
  | .format => "--format"

/-- The option with a long name. -/
def valuedByName? : String → Option Valued
  | "--config" => some .config
  | "--modules-dir" => some .directory
  | "--log" => some .filter
  | "--format" => some .format
  | _ => none

/-- The option with a letter. -/
def valuedByLetter? : Char → Option Valued
  | 'c' => some .config
  | 'm' => some .directory
  | 'f' => some .format
  | _ => none

/-- The request that a letter makes. -/
def requestByLetter? : Char → Option Request
  | 'V' => some .version
  | 'h' => some .help
  | _ => none

/-- Sets a field that has to be unset. -/
def once {α : Type} (option : Valued) (value : α) : Option α → Except UsageFault (Option α)
  | none => .ok (some value)
  | some _ => .error (.repeated option.name)

/-- A value that may not be empty. -/
def filled (option : Valued) (value : String) : Except UsageFault String :=
  if value.isEmpty then .error (.invalidValue option.name value) else .ok value

/-- Gives an option its value. -/
def assign (arguments : Arguments) (option : Valued) (value : String) :
    Except UsageFault Arguments := do
  match option with
  | .config =>
      let config ← once option (← filled option value) arguments.config
      .ok { arguments with config }
  | .directory =>
      let directory ← once option (← filled option value) arguments.directory
      .ok { arguments with directory }
  | .filter =>
      let filter ← once option value arguments.filter
      .ok { arguments with filter }
  | .format =>
      let found ←
        match value with
        | "text" => .ok OutputFormat.text
        | "json" => .ok OutputFormat.json
        | _ => .error (.invalidValue option.name value)
      let format ← once option found arguments.format
      .ok { arguments with format }

/-- Whether an argument is a value rather than an option. -/
def isValue (argument : String) : Bool :=
  argument = "-" || !argument.startsWith "-"

/-- What one argument amounts to. -/
inductive Reading where
  /-- An option together with its value. -/
  | complete (option : Valued) (value : String)
  /-- An option whose value is the next argument. -/
  | awaiting (option : Valued)
  | request (request : Request)
  /-- No option comes after this. -/
  | endOfOptions
  | wrong

/-- Reads an argument that starts with two dashes, given what follows them. -/
def readLong (rest : List Char) : Reading :=
  let name := "--" ++ String.ofList (rest.takeWhile (· ≠ '='))
  match rest.dropWhile (· ≠ '=') with
  | [] =>
      match valuedByName? name with
      | some option => .awaiting option
      | none =>
          if name = "--" then .endOfOptions
          else if name = "--version" then .request .version
          else if name = "--help" then .request .help
          else .wrong
  | _ :: value =>
      match valuedByName? name with
      | some option => .complete option (String.ofList value)
      | none => .wrong

/-- Reads an argument that starts with one dash, given what follows it. -/
def readShort : List Char → Reading
  | [] => .wrong
  | letter :: rest =>
      match requestByLetter? letter with
      | some request => .request request
      | none =>
          match valuedByLetter? letter, rest with
          | some option, [] => .awaiting option
          | some option, '=' :: value => .complete option (String.ofList value)
          | some option, value => .complete option (String.ofList value)
          | none, _ => .wrong

/-- Reads one argument. -/
def readOne (argument : String) : Reading :=
  match argument.toList with
  | '-' :: '-' :: rest => readLong rest
  | '-' :: rest => readShort rest
  | _ => .wrong

/-- Reads arguments on top of those read before. -/
def readFrom (arguments : Arguments) : List String → Except UsageFault Request
  | [] => .ok (.resolve arguments)
  | argument :: rest =>
      match readOne argument with
      | .complete option value => do readFrom (← arguments.assign option value) rest
      | .awaiting option =>
          match rest with
          | value :: rest =>
              if isValue value then do readFrom (← arguments.assign option value) rest
              else .error (.missingValue option.name)
          | [] => .error (.missingValue option.name)
      | .request request => .ok request
      | .endOfOptions =>
          match rest with
          | [] => .ok (.resolve arguments)
          | extra :: _ => .error (.unexpected extra)
      | .wrong => .error (.unexpected argument)

/-- Reads the arguments of the tool. -/
def read (arguments : List String) : Except UsageFault Request := readFrom {} arguments

end Arguments

end Overlay
