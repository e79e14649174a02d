import DocShape.Error

/-!
# Failures of a command

The failures of validation sorted by whom they concern: the caller's options,
the document or files, the schema.
-/

set_option autoImplicit false

namespace DocShape.Command

inductive Failure where
  | unreadableOptions (path : String) (fault : FileFault)
  | invalidOptions (path : String) (fault : Json.Fault)
  | emptyDocument
  | file (fault : FileFault)
  | json (fault : Json.Fault)
  | schema (error : Error)
  | rejected (violation : Violation)

namespace Failure

def ofError : Error → Failure
  | .rejected violation => .rejected violation
  | .file fault => .file fault
  | .json fault => .json fault
  | error => .schema error

def code : Failure → String
  | .unreadableOptions .. => "SHAPE_CLI_CONFIG_ERROR"
  | .invalidOptions .. => "SHAPE_CLI_CONFIG_ERROR"
  | .emptyDocument => "SHAPE_CLI_IO_ERROR"
  | .file _ => "SHAPE_CLI_IO_ERROR"
  | .json _ => "SHAPE_CLI_IO_ERROR"
  | .schema _ => "SHAPE_CLI_SCHEMA_ERROR"
  | .rejected _ => "SHAPE_CLI_REJECTED"

def message : Failure → String
  | .unreadableOptions path fault =>
      "options file: failed to read " ++ path ++ ": " ++ fault.message
  | .invalidOptions path fault =>
      "options file: invalid options in " ++ path ++ ": " ++ fault.message
  | .emptyDocument => "no document on input"
  | .file fault => fault.message
  | .json fault => "JSON error: " ++ fault.message
  | .schema error => error.message
  | .rejected violation => violation.rejection

/-- The messages of the failures behind this one, the nearest first. -/
def sources : Failure → List String
  | .unreadableOptions .. => []
  | .invalidOptions .. => []
  | .emptyDocument => []
  | .file _ => []
  | .json fault => [fault.message]
  | .schema error => error.sources
  | .rejected violation => [violation.message]

end Failure

end DocShape.Command
