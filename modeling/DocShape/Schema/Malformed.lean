import DocShape.KeyPath
import DocShape.Schema.Basic

/-!
# Malformed schemas

A nested object must declare fields; the outermost schema need not. The search
goes through the declarations in order and depth first, so that the outcome
does not depend on any document.
-/

set_option autoImplicit false

namespace DocShape

variable {ρ : Type}

mutual

/-- The path of the first nested object that declares no fields. -/
def ItemKind.emptyObject? (path : String) : ItemKind ρ → Option String
  | .scalar _ => none
  | .object ⟨[]⟩ => some path
  | .object ⟨field :: fields⟩ => emptyObjectIn? path (field :: fields)
  | .custom _ => none

def FieldKind.emptyObject? (path : String) : FieldKind ρ → Option String
  | .item kind => kind.emptyObject? path
  | .array element => element.emptyObject? (KeyPath.anyItem path)

def emptyObjectIn? (path : String) : List (String × Field ρ) → Option String
  | [] => none
  | (name, ⟨kind, _⟩) :: rest =>
      match kind.emptyObject? (KeyPath.join path name) with
      | some found => some found
      | none => emptyObjectIn? path rest

end

def Schema.emptyObject? (path : String) (schema : Schema ρ) : Option String :=
  emptyObjectIn? path schema.fields

end DocShape
