import DocShape.Proofs.Resolvers
import DocShape.Proofs.Sites

/-! The objects that a schema declares inside itself. Whether one of them is without
fields is a matter of the schema alone: then every validation ends by naming the
first of these, before it looks at the document or asks a resolver, and no other
schema is ever reported. -/

set_option autoImplicit false

namespace DocShape

open Json (Value)

variable {σ ρ τ : Type}

/-- An object that is declared below the outermost level, and its place. -/
structure NestedObject (ρ : Type) where
  markers : List Marker
  schema : Schema ρ

namespace NestedObject

def below (marker : Marker) (nested : NestedObject ρ) : NestedObject ρ :=
  { nested with markers := marker :: nested.markers }

/-- How the place reads under a path, with empty brackets for the items of an array. -/
def path (path : String) (nested : NestedObject ρ) : String :=
  nested.markers.foldl KeyPath.mark path

def isEmpty (nested : NestedObject ρ) : Bool :=
  nested.schema.isEmpty

/-- The paths of those among the objects that have no fields. -/
def emptyPaths (path : String) (objects : List (NestedObject ρ)) : List String :=
  (objects.filter isEmpty).map (NestedObject.path path)

private theorem emptyPaths_append (path : String) (objects others : List (NestedObject ρ)) :
    emptyPaths path (objects ++ others) = emptyPaths path objects ++ emptyPaths path others := by
  rw [emptyPaths, List.filter_append, List.map_append]
  rfl

private theorem emptyPaths_below (path : String) (marker : Marker)
    (objects : List (NestedObject ρ)) :
    emptyPaths path (objects.map (below marker)) =
      emptyPaths (KeyPath.mark path marker) objects := by
  rw [emptyPaths, List.filter_map, List.map_map]
  rfl

end NestedObject

mutual

/-- The objects inside an item, itself included. -/
def ItemKind.nestedObjects : ItemKind ρ → List (NestedObject ρ)
  | .scalar _ => []
  | .object ⟨fields⟩ => ⟨[], ⟨fields⟩⟩ :: nestedObjectsIn fields
  | .custom _ => []

def FieldKind.nestedObjects : FieldKind ρ → List (NestedObject ρ)
  | .item kind => kind.nestedObjects
  | .array element => element.nestedObjects.map (NestedObject.below .items)

def nestedObjectsIn : List (String × Field ρ) → List (NestedObject ρ)
  | [] => []
  | (name, ⟨kind, _⟩) :: rest =>
      kind.nestedObjects.map (NestedObject.below (.member name)) ++ nestedObjectsIn rest

end

/-- All objects declared inside the schema, depth first in order of declaration. -/
def Schema.nestedObjects (schema : Schema ρ) : List (NestedObject ρ) :=
  nestedObjectsIn schema.fields

/-! ## The paths of empty objects -/

mutual

private theorem ItemKind.emptyObjects_eq : (kind : ItemKind ρ) → ∀ path,
    kind.emptyObjects path = NestedObject.emptyPaths path kind.nestedObjects
  | .scalar _, _ => rfl
  | .object ⟨[]⟩, _ => rfl
  | .object ⟨field :: fields⟩, path => emptyObjectsIn_eq (field :: fields) path
  | .custom _, _ => rfl

private theorem FieldKind.emptyObjects_eq : (kind : FieldKind ρ) → ∀ path,
    kind.emptyObjects path = NestedObject.emptyPaths path kind.nestedObjects
  | .item kind, path => ItemKind.emptyObjects_eq kind path
  | .array element, path => by
      rw [FieldKind.emptyObjects, FieldKind.nestedObjects, NestedObject.emptyPaths_below,
        ItemKind.emptyObjects_eq element]
      rfl

private theorem emptyObjectsIn_eq : (fields : List (String × Field ρ)) → ∀ path,
    emptyObjectsIn path fields = NestedObject.emptyPaths path (nestedObjectsIn fields)
  | [], _ => rfl
  | (name, ⟨kind, _⟩) :: rest, path => by
      rw [emptyObjectsIn, nestedObjectsIn, NestedObject.emptyPaths_append,
        NestedObject.emptyPaths_below, FieldKind.emptyObjects_eq kind, emptyObjectsIn_eq rest]
      rfl

end

/-- The search stops at the first object without fields. -/
theorem Schema.emptyObject?_eq_find? (schema : Schema ρ) (path : String) :
    schema.emptyObject? path =
      (schema.nestedObjects.find? NestedObject.isEmpty).map (NestedObject.path path) := by
  rw [Schema.emptyObject?_eq_head?, Schema.emptyObjects, emptyObjectsIn_eq,
    NestedObject.emptyPaths, List.head?_map, List.head?_filter]
  rfl

/-! ## Malformed schemas -/

/-- The schema with its resolvers left out. -/
def Schema.shape (schema : Schema ρ) : Schema Unit :=
  schema.map fun _ => ()

theorem Schema.emptyObject?_of_shape {schema : Schema ρ} {other : Schema τ}
    (sameShape : other.shape = schema.shape) (path : String) :
    other.emptyObject? path = schema.emptyObject? path := by
  have shapes := congrArg (Schema.emptyObject? path) sameShape
  rwa [Schema.shape, Schema.shape, Schema.emptyObject?_map, Schema.emptyObject?_map] at shapes

/-- A validation of a malformed schema ends at the first object without fields, and so
does one of a schema in which the search finds the same. -/
theorem Schema.Malformed.exists_reported {schema : Schema ρ} (malformed : schema.Malformed)
    (rootKey : Option String) : ∃ nested,
      schema.nestedObjects.find? NestedObject.isEmpty = some nested ∧
      ∀ {τ : Type} {other : Schema (Resolver τ)},
        other.emptyObject? (rootKey.getD "") = schema.emptyObject? (rootKey.getD "") →
        ∀ strict document, validate other ⟨strict, rootKey⟩ document =
          pure (.error (.malformed (nested.path (rootKey.getD "")) .emptyObject)) := by
  have found : schema.emptyObject? (rootKey.getD "") ≠ none :=
    fun absent => Schema.emptyObject?_eq_none_iff.mp absent malformed
  rw [Schema.emptyObject?_eq_find?, ne_eq, Option.map_eq_none_iff] at found
  obtain ⟨nested, first⟩ := Option.ne_none_iff_exists'.mp found
  refine ⟨nested, first, ?_⟩
  intro τ other sameSearch strict document
  apply validate_malformed
  rw [Options.path, sameSearch, Schema.emptyObject?_eq_find?, first, Option.map_some]

theorem Schema.malformed_of_validate {schema : Schema (Resolver σ)}
    (unique : schema.UniqueNames) {options : Options} {document : Value} {state : σ}
    {path : String} {fault : SchemaFault}
    (ended : ((validate schema options document).run state).1 = .error (.malformed path fault)) :
    schema.Malformed := by
  obtain ⟨calls, result, final, validates⟩ := exists_validates schema options document state
  rw [validates.run_validate unique] at ended
  apply Classical.byContradiction
  intro wellFormed
  exact validates.ne_malformed wellFormed path fault ended

/-- A schema is reported as malformed or not whatever the document, the mode and the
resolvers. What is reported is its first object without fields, under the root key;
no resolver is asked. That the outermost level has no fields is no fault. -/
theorem validate_malformed_iff (schema : Schema.Distinct (Resolver σ))
    (rootKey : Option String) (state : σ) :
    (schema.Malformed ↔ ∃ strict document path fault,
      ((validate schema ⟨strict, rootKey⟩ document).run state).1 =
        .error (.malformed path fault)) ∧
    (schema.Malformed ↔ ∀ {τ : Type} (other : Schema (Resolver τ)), other.shape = schema.shape →
      ∀ strict document reached, ∃ path fault,
        ((validate other ⟨strict, rootKey⟩ document).run reached).1 =
          .error (.malformed path fault)) ∧
    (schema.Malformed → ∃ nested,
      schema.nestedObjects.find? NestedObject.isEmpty = some nested ∧
      ∀ {τ : Type} (other : Schema (Resolver τ)), other.shape = schema.shape →
        ∀ strict document reached,
          let error := Error.malformed (nested.path (rootKey.getD "")) .emptyObject
          (validate other ⟨strict, rootKey⟩ document).run reached = (.error error, reached) ∧
          (validate (other.map Resolver.logged) ⟨strict, rootKey⟩ document).run (reached, []) =
            (.error error, (reached, []))) ∧
    (schema.fields = [] → ¬ schema.Malformed) := by
  refine ⟨⟨?some, ?ofSome⟩, ⟨?every, ?ofEvery⟩, ?first, ?outermost⟩
  case some =>
    intro malformed
    obtain ⟨nested, -, reported⟩ := malformed.exists_reported rootKey
    refine ⟨true, .null, nested.path (rootKey.getD ""), .emptyObject, ?_⟩
    rw [reported rfl]
    rfl
  case ofSome =>
    rintro ⟨strict, document, path, fault, ended⟩
    exact Schema.malformed_of_validate schema.unique ended
  case every =>
    intro malformed τ other sameShape strict document reached
    obtain ⟨nested, -, reported⟩ := malformed.exists_reported rootKey
    refine ⟨nested.path (rootKey.getD ""), .emptyObject, ?_⟩
    rw [reported (Schema.emptyObject?_of_shape sameShape _)]
    rfl
  case ofEvery =>
    intro always
    obtain ⟨path, fault, ended⟩ := always schema rfl true .null state
    exact Schema.malformed_of_validate schema.unique ended
  case first =>
    intro malformed
    obtain ⟨nested, first, reported⟩ := malformed.exists_reported rootKey
    refine ⟨nested, first, ?_⟩
    intro τ other sameShape strict document reached error
    have sameSearch := Schema.emptyObject?_of_shape sameShape (rootKey.getD "")
    have onLogged := other.emptyObject?_map Resolver.logged (rootKey.getD "")
    rw [reported sameSearch, reported (onLogged.trans sameSearch)]
    exact ⟨rfl, rfl⟩
  case outermost =>
    intro noFields malformed
    obtain ⟨nested, first, -⟩ := malformed.exists_reported rootKey
    rw [Schema.nestedObjects, noFields] at first
    cases first

def Schema.shipment : Schema (Resolver Nat) :=
  ⟨[("id", .custom (.limited 1)),
    ("lines", .withOptional true (.array (.object ⟨[("sum", .number), ("tax", .object .empty)]⟩))),
    ("notes", .array (.object .empty))]⟩

/-- The lines are optional, and no document need have any for their tax to be reported. -/
theorem validate_malformed_iff_shipment :
    Schema.shipment.UniqueNames ∧ Schema.shipment.Malformed ∧
      (validate Schema.shipment ⟨false, some "body"⟩ (.object [("id", .string "x")])).run 0 =
        (.error (.malformed "body.lines[].tax" .emptyObject), 0) ∧
      (validate (Schema.shipment.map Resolver.logged) ⟨true, some "body"⟩ .null).run (0, []) =
        (.error (.malformed "body.lines[].tax" .emptyObject), (0, [])) := by
  have unique : Schema.shipment.UniqueNames := by decide
  obtain ⟨⟨-, malformed⟩, -, first, -⟩ :=
    validate_malformed_iff ⟨Schema.shipment, unique⟩ (some "body") 0
  have reported := malformed ⟨true, .null, "body.lines[].tax", .emptyObject, rfl⟩
  obtain ⟨nested, found, always⟩ := first reported
  have place : Schema.shipment.nestedObjects.find? NestedObject.isEmpty =
      some ⟨[.member "lines", .items, .member "tax"], .empty⟩ := rfl
  cases found.symm.trans place
  exact ⟨unique, reported, (always Schema.shipment rfl false _ 0).1,
    (always Schema.shipment rfl true .null 0).2⟩

end DocShape
