import DocShape.Entries
import DocShape.Json.Value

/-!
# Schemas

A schema declares named fields in order. Custom kinds carry a resolver, whose
type is a parameter: what is said of schemas here does not depend on how
resolvers run. Arrays of arrays cannot be declared.
-/

set_option autoImplicit false

namespace DocShape

inductive Scalar where
  | string
  | number
  | bool
deriving DecidableEq

mutual

/-- The kind of a value that is not an array. -/
inductive ItemKind (ρ : Type) where
  | scalar (scalar : Scalar)
  | object (schema : Schema ρ)
  | custom (resolver : ρ)

inductive FieldKind (ρ : Type) where
  | item (kind : ItemKind ρ)
  | array (element : ItemKind ρ)

structure Field (ρ : Type) where
  kind : FieldKind ρ
  optional : Bool

structure Schema (ρ : Type) where
  fields : List (String × Field ρ)

end

namespace Scalar

def name : Scalar → String
  | .string => "string"
  | .number => "number"
  | .bool => "bool"

/-- A value matches only its own kind; nothing is converted. -/
def admits : Scalar → Json.Value → Bool
  | .string, .string _ => true
  | .number, .number _ => true
  | .bool, .bool _ => true
  | _, _ => false

end Scalar

variable {ρ : Type}

def ItemKind.name : ItemKind ρ → String
  | .scalar kind => kind.name
  | .object _ => "object"
  | .custom _ => "custom"

def FieldKind.name : FieldKind ρ → String
  | .item kind => kind.name
  | .array _ => "array"

namespace Field

def required (kind : FieldKind ρ) : Field ρ :=
  { kind, optional := false }

def scalar (kind : Scalar) : Field ρ :=
  required (.item (.scalar kind))

def string : Field ρ := scalar .string

def number : Field ρ := scalar .number

def bool : Field ρ := scalar .bool

def object (schema : Schema ρ) : Field ρ :=
  required (.item (.object schema))

def array (element : ItemKind ρ) : Field ρ :=
  required (.array element)

def custom (resolver : ρ) : Field ρ :=
  required (.item (.custom resolver))

def withOptional (optional : Bool) (field : Field ρ) : Field ρ :=
  { field with optional }

end Field

namespace Schema

def empty : Schema ρ :=
  ⟨[]⟩

/-- Declares a field. One declared again keeps its place. -/
def insert (name : String) (field : Field ρ) (schema : Schema ρ) : Schema ρ :=
  ⟨Entries.insert name field schema.fields⟩

/-- The schema with one more declaration, for declarations in a row. -/
def field (name : String) (declared : Field ρ) (schema : Schema ρ) : Schema ρ :=
  schema.insert name declared

def ofPairs (pairs : List (String × Field ρ)) : Schema ρ :=
  ⟨Entries.ofPairs pairs⟩

def get? (name : String) (schema : Schema ρ) : Option (Field ρ) :=
  Entries.get? name schema.fields

def contains (name : String) (schema : Schema ρ) : Bool :=
  Entries.contains name schema.fields

def size (schema : Schema ρ) : Nat :=
  schema.fields.length

def isEmpty (schema : Schema ρ) : Bool :=
  schema.fields.isEmpty

/-- The schema whose one field is an object of this schema. -/
def nest (name : String) (schema : Schema ρ) : Schema ρ :=
  empty.insert name (.object schema)

end Schema

end DocShape
