import DocShape.Json.Value
import DocShape.Text.Quoted

/-!
# Values that do not fit

What was found where a value of another kind, another member or another number
of items was expected.
-/

set_option autoImplicit false

namespace DocShape.Json

/-- What a message shows of a value: scalars in full, containers by kind. -/
inductive Found where
  | null
  | bool (truth : Bool)
  | number (value : Number)
  | string (text : String)
  | sequence
  | map
deriving DecidableEq

def Found.describe : Found → String
  | .null => "null"
  | .bool truth => if truth then "boolean `true`" else "boolean `false`"
  | .number (.integer value) => "integer `" ++ toString value ++ "`"
  | .number (.float value) => "floating point `" ++ value.write ++ "`"
  | .string text => "string " ++ Text.quoted text
  | .sequence => "sequence"
  | .map => "map"

def Value.found : Value → Found
  | .null => .null
  | .bool truth => .bool truth
  | .number value => .number value
  | .string text => .string text
  | .array _ => .sequence
  | .object _ => .map

inductive Mismatch where
  | kind (found : Found) (expected : String)
  | tooFewItems (count : Nat) (expected : String)
  | tooManyItems (count : Nat)
  | unknownMember (name : String) (known : List String)
  | missingMember (name : String)
  | repeatedMember (name : String)
deriving DecidableEq

def Mismatch.message : Mismatch → String
  | .kind found expected => "invalid type: " ++ found.describe ++ ", expected " ++ expected
  | .tooFewItems count expected =>
      "invalid length " ++ toString count ++ ", expected " ++ expected
  | .tooManyItems count =>
      "invalid length " ++ toString count ++ ", expected fewer elements in array"
  | .unknownMember name known =>
      "unknown field `" ++ name ++ "`, expected one of " ++
        ", ".intercalate (known.map fun other => "`" ++ other ++ "`")
  | .missingMember name => "missing field `" ++ name ++ "`"
  | .repeatedMember name => "duplicate field `" ++ name ++ "`"

end DocShape.Json
