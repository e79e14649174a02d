import DocShape.KeyPath
import DocShape.Schema.Basic

/-!
# Listing the declarations of a schema

One line for each declared field and each array element, depth first in order
of declaration. Array elements are never optional.
-/

set_option autoImplicit false

namespace DocShape

structure Declaration where
  path : String
  kind : String
  optional : Bool
deriving DecidableEq

def Declaration.line (declaration : Declaration) : String :=
  declaration.path ++ "\t" ++ declaration.kind ++ "\t" ++
    if declaration.optional then "optional" else "required"

variable {ρ : Type}

mutual

/-- The declarations below an item. -/
def ItemKind.declarations (path : String) : ItemKind ρ → List Declaration
  | .scalar _ => []
  | .object ⟨fields⟩ => declarationsOf path fields
  | .custom _ => []

/-- The declarations below a field. -/
def FieldKind.declarations (path : String) : FieldKind ρ → List Declaration
  | .item kind => kind.declarations path
  | .array element =>
      let items := KeyPath.anyItem path
      { path := items, kind := element.name, optional := false } :: element.declarations items

def declarationsOf (path : String) : List (String × Field ρ) → List Declaration
  | [] => []
  | (name, ⟨kind, optional⟩) :: rest =>
      let place := KeyPath.join path name
      { path := place, kind := kind.name, optional } ::
        (kind.declarations place ++ declarationsOf path rest)

end

def Schema.declarations (schema : Schema ρ) : List Declaration :=
  declarationsOf "" schema.fields

end DocShape
