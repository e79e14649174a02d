import DocShape.Json.Fault

/-!
# Errors

A document that does not conform is rejected; every other error is a fault of
the schema, of a resolver or of a file, and says nothing about the document.
-/

set_option autoImplicit false

namespace DocShape

open Json (Value Mismatch)

def describeValue : Value → String
  | .null => "null"
  | .bool truth => if truth then "bool true" else "bool false"
  | .number value => "number " ++ value.write
  | .string text => "string " ++ Text.quoted text
  | .array items => "array of " ++ toString items.length ++ " elements"
  | .object _ => "object"

/-- How a document fails to conform to a schema. -/
inductive Violation where
  | wrongKind (path expected : String) (actual : Value)
  | missing (path : String)
  | unexpected (path name : String)

namespace Violation

def path : Violation → String
  | .wrongKind path _ _ => path
  | .missing path => path
  | .unexpected path _ => path

def code : Violation → String
  | .wrongKind .. => "SHAPE_TYPE_MISMATCH"
  | .missing _ => "SHAPE_NON_NULLABLE"
  | .unexpected .. => "SHAPE_UNEXPECTED_FIELD"

def message : Violation → String
  | .wrongKind path expected actual =>
      "field '" ++ path ++ "': expected " ++ expected ++ ", got " ++ describeValue actual
  | .missing path => "field '" ++ path ++ "': required value is missing or null"
  | .unexpected path name => "field '" ++ path ++ "': unexpected field '" ++ name ++ "'"

/-- The message of the rejection that a violation leads to. -/
def rejection (violation : Violation) : String :=
  "validation failed: " ++ violation.message

def equal : Violation → Violation → Bool
  | .wrongKind path expected actual, .wrongKind path' expected' actual' =>
      path == path' && expected == expected' && actual.equal actual'
  | .missing path, .missing path' => path == path'
  | .unexpected path name, .unexpected path' name' => path == path' && name == name'
  | _, _ => false

end Violation

/-- Why a schema, or the definition of one, cannot be used. -/
inductive SchemaFault where
  | emptyObject
  | noDefinition
  | entry (mismatch : Mismatch)
  | misplacedMember (member owner type : String)
  | optionalElement
  | nestedArray
  | noElement
  | noFields
  | noResolver
  | unknownResolver (name : String)
  | unknownType (name : String)
  | stated (reason : String)

def SchemaFault.message : SchemaFault → String
  | .emptyObject => "object field declares no nested fields"
  | .noDefinition => "definition must be an object with 'fields'"
  | .entry mismatch => mismatch.message
  | .misplacedMember member owner type =>
      "'" ++ member ++ "' is only allowed on " ++ owner ++ " fields, not '" ++ type ++ "'"
  | .optionalElement => "array elements cannot declare 'optional'"
  | .nestedArray => "arrays of arrays are not supported"
  | .noElement => "array field without 'element'"
  | .noFields => "object field without nested 'fields'"
  | .noResolver => "custom field without 'resolver'"
  | .unknownResolver name => "unknown resolver '" ++ name ++ "'"
  | .unknownType name => "unknown field type '" ++ name ++ "'"
  | .stated reason => reason

/-- Why a file could not be read as text. -/
inductive FileFault where
  | notFound
  | isDirectory
  | notUtf8
  | stated (reason : String)
deriving DecidableEq

def FileFault.message : FileFault → String
  | .notFound => "No such file or directory (os error 2)"
  | .isDirectory => "Is a directory (os error 21)"
  | .notUtf8 => "stream did not contain valid UTF-8"
  | .stated reason => reason

inductive Severity where
  | reject
  | fatal
deriving DecidableEq

def Severity.name : Severity → String
  | .reject => "REJECT"
  | .fatal => "FATAL"

inductive Error where
  | rejected (violation : Violation)
  | malformed (path : String) (fault : SchemaFault)
  | resolverAltered (path : String)
  | resolverFailed (path reason : String)
  | file (fault : FileFault)
  | json (fault : Json.Fault)

namespace Error

def code : Error → String
  | .rejected violation => violation.code
  | .malformed .. => "SHAPE_MALFORMED_SCHEMA"
  | .resolverAltered _ => "SHAPE_RESOLVER_CONTRACT"
  | .resolverFailed .. => "SHAPE_RESOLVER_FAILED"
  | .file _ => "SHAPE_IO_ERROR"
  | .json _ => "SHAPE_JSON_ERROR"

def message : Error → String
  | .rejected violation => violation.rejection
  | .malformed path fault => "malformed schema at '" ++ path ++ "': " ++ fault.message
  | .resolverAltered path =>
      "resolver for '" ++ path ++ "' returned a different value than it received"
  | .resolverFailed path reason => "resolver for '" ++ path ++ "' failed: " ++ reason
  | .file fault => "I/O error: " ++ fault.message
  | .json fault => "JSON error: " ++ fault.message

/-- The messages of the failures behind this one, the nearest first. -/
def sources : Error → List String
  | .rejected violation => [violation.message]
  | .malformed .. => []
  | .resolverAltered _ => []
  | .resolverFailed _ reason => [reason]
  | .file fault => [fault.message]
  | .json fault => [fault.message]

def severity : Error → Severity
  | .rejected _ => .reject
  | _ => .fatal

def isFatal (error : Error) : Bool :=
  error.severity == .fatal

def path? : Error → Option String
  | .rejected violation => some violation.path
  | .malformed path _ => some path
  | .resolverAltered path => some path
  | .resolverFailed path _ => some path
  | .file _ => none
  | .json _ => none

end Error

end DocShape
