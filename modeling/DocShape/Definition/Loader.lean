import DocShape.Definition.Entry
import DocShape.Json.Reader
import DocShape.KeyPath
import DocShape.Schema.Basic

/-!
# Loading schema definitions

A loader knows resolvers by name and makes schemas of definition documents. The
first fault in document order, depth first, is reported at its declaration
path.
-/

set_option autoImplicit false

namespace DocShape

open Json (Value)

structure Loader (ρ : Type) where
  resolvers : List (String × ρ)

namespace Loader

variable {ρ : Type}

def empty : Loader ρ :=
  ⟨[]⟩

/-- A resolver registered again under its name replaces the earlier one. -/
def register (name : String) (resolver : ρ) (loader : Loader ρ) : Loader ρ :=
  ⟨Entries.insert name resolver loader.resolvers⟩

def malformed {α : Type} (path : String) (fault : SchemaFault) : Except Error α :=
  .error (.malformed path fault)

def findResolver (loader : Loader ρ) (path : String) (entry : Entry) : Except Error ρ :=
  match entry.resolver with
  | none => malformed path .noResolver
  | some name =>
      match Entries.get? name loader.resolvers with
      | none => malformed path (.unknownResolver name)
      | some resolver => .ok resolver

mutual

def loadField (loader : Loader ρ) (path : String) (value : Value) : Except Error (Field ρ) :=
  match decoded : Entry.read path value with
  | .error error => .error error
  | .ok entry =>
      let optional := entry.optional.getD false
      if entry.type = "array" then
        match held : entry.element with
        | none => malformed path .noElement
        | some element => do
            have := Entry.sizeOf_element_lt (Entry.ofValue_of_read decoded) held
            let kind ← loader.loadElement (KeyPath.anyItem path) element
            return { kind := .array kind, optional }
      else do
        have := Entry.fieldsSize_lt (Entry.ofValue_of_read decoded)
        let kind ← loader.loadItem path entry
        return { kind := .item kind, optional }
termination_by 2 * sizeOf value

def loadElement (loader : Loader ρ) (path : String) (value : Value) :
    Except Error (ItemKind ρ) :=
  match decoded : Entry.read path value with
  | .error error => .error error
  | .ok entry =>
      if entry.optional.isSome then malformed path .optionalElement
      else if entry.type = "array" then malformed path .nestedArray
      else
        have := Entry.fieldsSize_lt (Entry.ofValue_of_read decoded)
        loader.loadItem path entry
termination_by 2 * sizeOf value

def loadItem (loader : Loader ρ) (path : String) (entry : Entry) :
    Except Error (ItemKind ρ) :=
  match entry.type with
  | "string" => .ok (.scalar .string)
  | "number" => .ok (.scalar .number)
  | "bool" => .ok (.scalar .bool)
  | "boolean" => .ok (.scalar .bool)
  | "object" =>
      match held : entry.fields with
      | none => malformed path .noFields
      | some fields =>
          if fields.isEmpty then malformed path .noFields
          else do
            have : entry.fieldsSize = sizeOf fields := by simp [Entry.fieldsSize, held]
            let declared ← loader.loadFields path fields
            return .object (.ofPairs declared)
  | "custom" => do
      let resolver ← loader.findResolver path entry
      return .custom resolver
  | other => malformed path (.unknownType other)
termination_by 2 * entry.fieldsSize + 1

/-- The fields declared by the entries of a map, whose names follow the path. -/
def loadFields (loader : Loader ρ) (path : String) :
    List (String × Value) → Except Error (List (String × Field ρ))
  | [] => .ok []
  | (name, value) :: rest => do
      let field ← loader.loadField (KeyPath.join path name) value
      let fields ← loader.loadFields path rest
      return (name, field) :: fields
termination_by entries => 2 * sizeOf entries

end

/-- The map of entries that a definition must hold. Its other members are
ignored. -/
def definedFields? : Value → Option (List (String × Value))
  | .object members => (Entries.get? "fields" members).bind Entry.members?
  | _ => none

def load (loader : Loader ρ) (definition : Value) : Except Error (Schema ρ) :=
  match definedFields? definition with
  | none => malformed KeyPath.definition .noDefinition
  | some fields => do
      let declared ← loader.loadFields "" fields
      return .ofPairs declared

def loadText (loader : Loader ρ) (text : String) : Except Error (Schema ρ) :=
  match Value.read text with
  | .error fault => .error (.json fault)
  | .ok definition => loader.load definition

def loadFile (loader : Loader ρ) (contents : Except FileFault String) :
    Except Error (Schema ρ) :=
  match contents with
  | .error fault => .error (.file fault)
  | .ok text => loader.loadText text

end Loader

end DocShape
