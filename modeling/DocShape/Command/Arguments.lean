import DocShape.Entries

/-!
# Command line arguments

`check --schema PATH [--input PATH] [--config PATH] [--strict] [--root-key KEY]`
or `inspect --schema PATH`. A value follows its option as the next argument or
behind an equals sign. No option may be given twice, and no path is empty.
-/

set_option autoImplicit false

namespace DocShape.Command

structure CheckArguments where
  schema : String
  input : Option String
  config : Option String
  strict : Bool
  rootKey : Option String
deriving DecidableEq

inductive Invocation where
  | check (arguments : CheckArguments)
  | inspect (schema : String)
deriving DecidableEq

/-- Why no command is run: help or the version is asked for, or the arguments are
not as they should be. -/
inductive Diversion where
  | help
  | version
  | noCommand
  | unknownCommand
  | unknownArgument
  | missingArgument
  | invalidValue
  | tooManyValues
  | repeatedArgument
deriving DecidableEq

def Diversion.exitCode : Diversion → Nat
  | .help => 0
  | .version => 0
  | _ => 2

/-! ## Single arguments -/

/-- What an argument looks like. -/
inductive Shape where
  /-- Two hyphens alone: what follows is no option. -/
  | separator
  | long (name : String) (value : Option String)
  | short (letter : Char)
  | plain

/-- Splits `name=value` at the first equals sign. -/
def splitValue (text : List Char) : String × Option String :=
  let name := text.takeWhile (· != '=')
  match text.drop name.length with
  | [] => (String.ofList name, none)
  | _ :: value => (String.ofList name, some (String.ofList value))

def Shape.of (argument : String) : Shape :=
  match argument.toList with
  | '-' :: '-' :: [] => .separator
  | '-' :: '-' :: rest =>
      let (name, value) := splitValue rest
      .long name value
  | '-' :: letter :: _ => .short letter
  | _ => .plain

inductive OptionKind where
  | flag
  | text
  | path
deriving DecidableEq

/-! ## The options of a command -/

/-- Values given so far, and the last option that stood apart from its value.
Its value is judged only when the next known option or the end is reached. -/
structure Collected where
  values : List (String × String) := []
  pending : Option (String × Option String) := none

namespace Collected

def add (kind : OptionKind) (name value : String) (collected : Collected) :
    Except Diversion Collected :=
  if Entries.contains name collected.values then .error .repeatedArgument
  else if kind = .path ∧ value = "" then .error .invalidValue
  else .ok { values := Entries.insert name value collected.values }

/-- Takes in the pending option. -/
def settle (known : List (String × OptionKind)) (collected : Collected) :
    Except Diversion Collected :=
  match collected.pending with
  | none => .ok collected
  | some (_, none) => .error .invalidValue
  | some (name, some value) =>
      let kind := (Entries.get? name known).getD .text
      add kind name value collected

end Collected

/-- Takes in the arguments behind the command's name. -/
def collect (known : List (String × OptionKind)) (collected : Collected) :
    List String → Except Diversion Collected
  | [] => collected.settle known
  | argument :: rest =>
      match Shape.of argument with
      | .separator => if rest.isEmpty then collected.settle known else .error .unknownArgument
      | .short letter =>
          if letter = 'h' then do
            let _ ← collected.settle known
            .error .help
          else .error .unknownArgument
      | .long "help" none => do
          let _ ← collected.settle known
          .error .help
      | .long "help" (some _) => .error .tooManyValues
      | .long name value =>
          match Entries.get? name known, value with
          | none, _ => .error .unknownArgument
          | some .flag, some _ => .error .tooManyValues
          | some .flag, none => do
              let settled ← collected.settle known
              let added ← settled.add .flag name "true"
              collect known added rest
          | some kind, some value => do
              let settled ← collected.settle known
              let added ← settled.add kind name value
              collect known added rest
          | some _, none => do
              let settled ← collected.settle known
              collect known { settled with pending := some (name, none) } rest
      | .plain =>
          match collected.pending with
          | some (name, none) =>
              collect known { collected with pending := some (name, some argument) } rest
          | _ => .error .unknownArgument

def checkOptions : List (String × OptionKind) :=
  [("schema", .path), ("input", .path), ("config", .path), ("strict", .flag), ("root-key", .text)]

def inspectOptions : List (String × OptionKind) :=
  [("schema", .path)]

def parseCheck (arguments : List String) : Except Diversion Invocation := do
  let collected ← collect checkOptions {} arguments
  match Entries.get? "schema" collected.values with
  | none => .error .missingArgument
  | some schema =>
      return .check {
        schema
        input := Entries.get? "input" collected.values
        config := Entries.get? "config" collected.values
        strict := Entries.contains "strict" collected.values
        rootKey := Entries.get? "root-key" collected.values }

def parseInspect (arguments : List String) : Except Diversion Invocation := do
  let collected ← collect inspectOptions {} arguments
  match Entries.get? "schema" collected.values with
  | none => .error .missingArgument
  | some schema => return .inspect schema

/-! ## Commands -/

def commandNames : List String :=
  ["check", "inspect", "help"]

/-- Help can be asked for one command; commands have no commands below them. -/
def parseHelp : List String → Diversion
  | [] => .help
  | name :: rest => if name ∈ commandNames ∧ rest.isEmpty then .help else .unknownCommand

/-- What becomes of arguments that do not start with a command. -/
def divert (argument : String) (rest : List String) : Diversion :=
  match Shape.of argument with
  | .separator =>
      match rest with
      | [] => .noCommand
      | next :: _ => if next ∈ commandNames then .unknownArgument else .unknownCommand
  | .long name value =>
      if name = "help" ∨ name = "version" then
        if value.isSome then .tooManyValues
        else if name = "help" then .help
        else .version
      else .unknownArgument
  | .short letter =>
      if letter = 'h' then .help
      else if letter = 'V' then .version
      else .unknownArgument
  | .plain => .unknownCommand

def Invocation.parse : List String → Except Diversion Invocation
  | [] => .error .noCommand
  | "check" :: rest => parseCheck rest
  | "inspect" :: rest => parseInspect rest
  | "help" :: rest => .error (parseHelp rest)
  | argument :: rest => .error (divert argument rest)

end DocShape.Command
