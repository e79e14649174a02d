import DocShape.Command.Arguments
import DocShape.Command.Failure
import DocShape.Command.Response
import DocShape.Definition.Loader
import DocShape.Options.Reader
import DocShape.Schema.Listing
import DocShape.Text.Blank
import DocShape.Validate

/-!
# Running commands

Commands see files and standard input through a `World`, and leave what they
have written together with how they ended.
-/

set_option autoImplicit false

namespace DocShape.Command

open Json (Value)

/-- Where texts come from. -/
structure World (m : Type → Type) where
  file : String → m (Except FileFault String)
  input : m (Except FileFault String)

structure Outcome where
  output : String
  failure : Option Failure

namespace Outcome

def failed (failure : Failure) : Outcome :=
  { output := "", failure := some failure }

end Outcome

/-! ## Inputs -/

/-- Options from the text of the file at the path, if there is one. -/
def optionsOfFile : Option (String × Except FileFault String) → Except Failure Options
  | none => .ok {}
  | some (path, .error fault) => .error (.unreadableOptions path fault)
  | some (path, .ok text) => (Options.read text).mapError (.invalidOptions path)

/-- The command line can only turn strictness on, and replaces the root key. -/
def overrideOptions (strict : Bool) (rootKey : Option String) (options : Options) : Options :=
  { strict := options.strict || strict
    rootKey := rootKey.or options.rootKey }

def documentOfText (contents : Except FileFault String) : Except Failure Value :=
  match contents with
  | .error fault => .error (.file fault)
  | .ok text =>
      if Text.isBlank text then .error .emptyDocument
      else (Value.read text).mapError .json

/-- Schemas of the command line have no custom fields. -/
def schemaOfFile (contents : Except FileFault String) :
    Except Error (Schema (Resolver Unit)) :=
  Loader.empty.loadFile contents

/-! ## Commands -/

def validateDocument (schema : Schema (Resolver Unit)) (options : Options) (document : Value) :
    Except Error Value :=
  (validate schema options document ()).1

def check (schema : Except FileFault String) (options : Options) (document : Value) : Outcome :=
  match schemaOfFile schema with
  | .error error => .failed (.ofError error)
  | .ok schema =>
      match validateDocument schema options document with
      | .ok document => { output := (Response.accepted document).line, failure := none }
      | .error error =>
          { output := (Response.refused error.code error.path? error.message).line
            failure := some (.ofError error) }

def inspect (schema : Except FileFault String) : Outcome :=
  match schemaOfFile schema with
  | .error error => .failed (.ofError error)
  | .ok schema =>
      { output := String.join (schema.declarations.map fun declaration =>
          declaration.line ++ "\n")
        failure := none }

section

variable {m : Type → Type} [Monad m]

def readOptions (world : World m) : Option String → m (Except Failure Options)
  | none => return optionsOfFile none
  | some path => return optionsOfFile (some (path, ← world.file path))

def loadOptions (world : World m) (config : Option String) (strict : Bool)
    (rootKey : Option String) : m (Except Failure Options) := do
  return (← readOptions world config).map (overrideOptions strict rootKey)

def readDocument (world : World m) : Option String → m (Except Failure Value)
  | some path => return documentOfText (← world.file path)
  | none => return documentOfText (← world.input)

/-- The options are read first, then the document, then the schema. Nothing is
read after a failure. -/
def runCheck (world : World m) (arguments : CheckArguments) : m Outcome := do
  match ← loadOptions world arguments.config arguments.strict arguments.rootKey with
  | .error failure => return .failed failure
  | .ok options =>
      match ← readDocument world arguments.input with
      | .error failure => return .failed failure
      | .ok document => return check (← world.file arguments.schema) options document

def runInvocation (world : World m) : Invocation → m Outcome
  | .check arguments => runCheck world arguments
  | .inspect schema => return inspect (← world.file schema)

end

/-! ## The whole program -/

structure Exit where
  code : Nat
  output : String
  errors : String
deriving DecidableEq

def programVersion : String :=
  "shapeguard 0.1.0"

/-- A short text in the place of full help pages. -/
def usage : String :=
  "Validate JSON documents against declared shapes\n\n" ++
    "Usage: shapeguard check --schema PATH [--input PATH] [--config PATH] [--strict] " ++
    "[--root-key KEY]\n" ++
    "       shapeguard inspect --schema PATH\n"

def Outcome.exit (outcome : Outcome) : Exit :=
  match outcome.failure with
  | none => { code := 0, output := outcome.output, errors := "" }
  | some failure =>
      { code := 1
        output := outcome.output
        errors := failure.code ++ ": " ++ failure.message ++ "\n" }

def Diversion.exit (diversion : Diversion) : Exit :=
  match diversion with
  | .help => { code := diversion.exitCode, output := usage, errors := "" }
  | .version => { code := diversion.exitCode, output := programVersion ++ "\n", errors := "" }
  | _ => { code := diversion.exitCode, output := "", errors := usage }

def run {m : Type → Type} [Monad m] (world : World m) (arguments : List String) : m Exit := do
  match Invocation.parse arguments with
  | .error diversion => return diversion.exit
  | .ok invocation => return (← runInvocation world invocation).exit

end DocShape.Command
