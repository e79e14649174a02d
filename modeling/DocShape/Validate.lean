import DocShape.Error
import DocShape.Options
import DocShape.Schema.Malformed

/-!
# Validation

The walk goes through the declared fields in order and stops at the first
violation. Resolvers may share a state. A custom field keeps the value that
its resolver accepted; a custom array element becomes what its resolver
returned.
-/

set_option autoImplicit false

namespace DocShape

open Json (Value)

/-- A caller's check of a value at a key path. It fails with a reason, or returns
the value it was given. -/
abbrev Resolver (σ : Type) : Type :=
  Value → String → StateM σ (Except String Value)

abbrev Walk (σ α : Type) : Type :=
  ExceptT Error (StateM σ) α

variable {σ : Type}

namespace Walk

/-- Runs a resolver and insists that it returns the value it was given. -/
def resolve (resolver : Resolver σ) (value : Value) (path : String) : Walk σ Value := do
  match ← (resolver value path : StateM σ (Except String Value)) with
  | .error reason => throw (.resolverFailed path reason)
  | .ok resolved =>
      if resolved.sameValue value then return resolved
      else throw (.resolverAltered path)

def reject {α : Type} (violation : Violation) : Walk σ α :=
  throw (.rejected violation)

/-- Checks the items of the array at the path, from the given index on. No item
may be null. -/
def items (check : Value → String → Walk σ Value) (path : String) :
    Nat → List Value → Walk σ (List Value)
  | _, [] => return []
  | index, item :: rest => do
      let place := KeyPath.item path index
      if item.isNull then
        reject (.missing place)
      else
        let checked ← check item place
        let others ← items check path (index + 1) rest
        return checked :: others

/-- The name of the first member that the schema does not declare. -/
def undeclared? {ρ : Type} (fields : List (String × Field ρ))
    (members : List (String × Value)) : Option String :=
  (Entries.names members).find? fun name => !Entries.contains name fields

mutual

def item (strict : Bool) : ItemKind (Resolver σ) → Value → String → Walk σ Value
  | .scalar kind, value, path =>
      if kind.admits value then return value
      else reject (.wrongKind path kind.name value)
  | .object schema, .object members, path => do
      return .object (← object strict schema members path)
  | .object _, value, path => reject (.wrongKind path "object" value)
  | .custom resolver, value, path => resolve resolver value path

def field (strict : Bool) : FieldKind (Resolver σ) → Value → String → Walk σ Value
  | .item (.custom resolver), value, path => do
      let _ ← resolve resolver value path
      return value
  | .item kind, value, path => item strict kind value path
  | .array element, .array values, path => do
      return .array (← items (fun value place => item strict element value place) path 0 values)
  | .array _, value, path => reject (.wrongKind path "array" value)

/-- One object level, whose members are named from the path on. -/
def object (strict : Bool) :
    Schema (Resolver σ) → List (String × Value) → String → Walk σ (List (String × Value))
  | ⟨declared⟩, members, path => do
      match if strict then undeclared? declared members else none with
      | some name => reject (.unexpected (KeyPath.join path name) name)
      | none => fields strict declared members path

/-- Checks the declared fields one after another. A null member is absent. -/
def fields (strict : Bool) :
    List (String × Field (Resolver σ)) → List (String × Value) → String →
      Walk σ (List (String × Value))
  | [], members, _ => return members
  | (name, ⟨kind, optional⟩) :: rest, members, path => do
      let place := KeyPath.join path name
      match Entries.get? name members with
      | none | some .null =>
          if optional then fields strict rest members path
          else reject (.missing place)
      | some value =>
          let checked ← field strict kind value place
          fields strict rest (Entries.insert name checked members) path

end

end Walk

def walkDocument (schema : Schema (Resolver σ)) (options : Options) :
    Value → Walk σ Value
  | .object members => do
      return .object (← Walk.object options.strict schema members options.path)
  | value =>
      let place := if options.path.isEmpty then KeyPath.root else options.path
      Walk.reject (.wrongKind place "object" value)

/-- Checks a document, and returns it with custom array elements resolved. A
malformed schema is reported before the document is looked at. -/
def validate (schema : Schema (Resolver σ)) (options : Options) (document : Value) :
    StateM σ (Except Error Value) :=
  match schema.emptyObject? options.path with
  | some path => return .error (.malformed path .emptyObject)
  | none => (walkDocument schema options document).run

end DocShape
