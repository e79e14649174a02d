import DocShape.Json.Writer

/-!
# Options of a validation
-/

set_option autoImplicit false

namespace DocShape

structure Options where
  /-- Members that the schema does not declare are refused. -/
  strict : Bool := false
  /-- Stands before every key path. -/
  rootKey : Option String := none
deriving DecidableEq

namespace Options

/-- The path of the document, empty where no root key is set. -/
def path (options : Options) : String :=
  options.rootKey.getD ""

/-- The members of the options' document; a root key only where one is set. -/
def members (options : Options) : List (String × Json.Value) :=
  ("strict", .bool options.strict) ::
    match options.rootKey with
    | some key => [("root_key", .string key)]
    | none => []

def write (options : Options) : String :=
  (Json.Value.object options.members).write

end Options

end DocShape
