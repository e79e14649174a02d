import DocShape.Schema.Basic
import DocShape.Text.Quoted

/-!
# Schemas as text for diagnosis

Every part is shown by its name and contents; resolvers are opaque.
-/

set_option autoImplicit false

namespace DocShape

variable {ρ : Type}

def Scalar.describe : Scalar → String
  | .string => "Primitive(String)"
  | .number => "Primitive(Number)"
  | .bool => "Primitive(Bool)"

mutual

def ItemKind.describe : ItemKind ρ → String
  | .scalar kind => kind.describe
  | .object schema => "Object(" ++ schema.describe ++ ")"
  | .custom _ => "Custom(Resolver(..))"

def FieldKind.describe : FieldKind ρ → String
  | .item kind => kind.describe
  | .array element => "Array(" ++ element.describe ++ ")"

def Field.describe : Field ρ → String
  | ⟨kind, optional⟩ =>
      "FieldSpec \x7b kind: " ++ kind.describe ++ ", optional: " ++
        (if optional then "true" else "false") ++ " \x7d"

def Schema.describe : Schema ρ → String
  | ⟨fields⟩ => "Schema \x7b fields: \x7b" ++ describeFields fields ++ "\x7d \x7d"

def describeFields : List (String × Field ρ) → String
  | [] => ""
  | [(name, field)] => Text.quoted name ++ ": " ++ field.describe
  | (name, field) :: rest =>
      Text.quoted name ++ ": " ++ field.describe ++ ", " ++ describeFields rest

end

end DocShape
