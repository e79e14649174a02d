import DocShape.Proofs.Location
import DocShape.Schema.Basic

/-! Places that a schema declares: the levels, where it declares an object, and the
fields and items of all kinds. Each step from one to the next is one to a
declared member or to some item of a declared array, so that no other names than
the declared ones stand on the way. -/

set_option autoImplicit false

namespace DocShape

variable {ρ : Type}

/-! ## Where objects are declared -/

mutual

/-- The places below a value of the kind where an object is declared, and the
schema of that object. -/
inductive ItemKind.Level : ItemKind ρ → Location → Schema ρ → Prop where
  | object {schema level : Schema ρ} {place : Location} (inside : schema.Level place level) :
      ItemKind.Level (.object schema) place level

inductive FieldKind.Level : FieldKind ρ → Location → Schema ρ → Prop where
  | item {kind : ItemKind ρ} {place : Location} {level : Schema ρ}
      (inside : kind.Level place level) : FieldKind.Level (.item kind) place level
  | array {element : ItemKind ρ} {index : Nat} {place : Location} {level : Schema ρ}
      (inside : element.Level place level) :
      FieldKind.Level (.array element) (.item index :: place) level

inductive Schema.Level : Schema ρ → Location → Schema ρ → Prop where
  | here {schema : Schema ρ} : Schema.Level schema [] schema
  | field {declared : List (String × Field ρ)} {name : String} {kind : FieldKind ρ}
      {optional : Bool} {place : Location} {level : Schema ρ}
      (listed : (name, ⟨kind, optional⟩) ∈ declared) (inside : kind.Level place level) :
      Schema.Level ⟨declared⟩ (.member name :: place) level

end

/-! ## Where fields and items are declared -/

/-- What a field declares at a place inside it. An item is declared as a field is
that is required. -/
inductive Field.At : Field ρ → Location → Field ρ → Prop where
  | here {field : Field ρ} : Field.At field [] field
  | member {declared : List (String × Field ρ)} {name : String} {field wanted : Field ρ}
      {optional : Bool} {place : Location} (listed : (name, field) ∈ declared)
      (inside : field.At place wanted) :
      Field.At ⟨.item (.object ⟨declared⟩), optional⟩ (.member name :: place) wanted
  | item {element : ItemKind ρ} {wanted : Field ρ} {optional : Bool} {index : Nat}
      {place : Location} (inside : (Field.required (.item element)).At place wanted) :
      Field.At ⟨.array element, optional⟩ (.item index :: place) wanted

mutual

theorem ItemKind.Level.field_at {kind : ItemKind ρ} {place : Location} {level : Schema ρ} :
    kind.Level place level → ∀ optional,
      ∃ held, Field.At ⟨.item kind, optional⟩ place ⟨.item (.object level), held⟩
  | .object inside, optional => inside.field_at optional

theorem FieldKind.Level.field_at {kind : FieldKind ρ} {place : Location} {level : Schema ρ} :
    kind.Level place level → ∀ optional,
      ∃ held, Field.At ⟨kind, optional⟩ place ⟨.item (.object level), held⟩
  | .item inside, optional => inside.field_at optional
  | .array inside, _ => by
      obtain ⟨held, found⟩ := inside.field_at false
      exact ⟨held, .item found⟩

theorem Schema.Level.field_at {schema : Schema ρ} {place : Location} {level : Schema ρ} :
    schema.Level place level → ∀ optional,
      ∃ held, Field.At ⟨.item (.object schema), optional⟩ place ⟨.item (.object level), held⟩
  | .here, optional => ⟨optional, .here⟩
  | @Schema.Level.field _ _ _ _ wasOptional _ _ listed inside, _ => by
      obtain ⟨held, found⟩ := inside.field_at wasOptional
      exact ⟨held, .member listed found⟩

end

theorem Field.At.level {field wanted : Field ρ} {place : Location} {level : Schema ρ}
    (found : field.At place wanted) (object : wanted.kind = .item (.object level)) :
    field.kind.Level place level := by
  induction found with
  | here =>
      rw [object]
      exact .item (.object .here)
  | @member _ _ field _ _ _ listed _ ih =>
      obtain ⟨kind, optional⟩ := field
      exact .item (.object (.field listed (ih object)))
  | item _ ih =>
      cases ih object with
      | item inside => exact .array inside

/-- The levels of a schema are the places where it declares an object. -/
theorem Schema.level_iff {schema level : Schema ρ} {place : Location} :
    schema.Level place level ↔
      ∃ optional, (Field.object schema).At place ⟨.item (.object level), optional⟩ := by
  constructor
  · intro inside
    exact inside.field_at false
  · intro declared
    obtain ⟨optional, found⟩ := declared
    cases found.level rfl with
    | item inside =>
        cases inside with
        | object inside => exact inside

/-! ## Names on the way -/

mutual

def ItemKind.names : ItemKind ρ → List String
  | .scalar _ => []
  | .object schema => schema.names
  | .custom _ => []

def FieldKind.names : FieldKind ρ → List String
  | .item kind => kind.names
  | .array element => element.names

/-- The names of the fields at any depth, in order of declaration. -/
def Schema.names : Schema ρ → List String
  | ⟨fields⟩ => namesIn fields

def namesIn : List (String × Field ρ) → List String
  | [] => []
  | (name, ⟨kind, _⟩) :: rest => name :: (kind.names ++ namesIn rest)

end

theorem mem_namesIn_iff {name : String} {fields : List (String × Field ρ)} :
    name ∈ namesIn fields ↔ ∃ pair ∈ fields, name = pair.1 ∨ name ∈ pair.2.kind.names := by
  induction fields with
  | nil => simp [namesIn]
  | cons head rest ih =>
      obtain ⟨key, ⟨kind, optional⟩⟩ := head
      simp [namesIn, ih, or_assoc]

theorem Field.At.mem_names {field wanted : Field ρ} {place : Location}
    (found : field.At place wanted) {name : String} (onWay : .member name ∈ place) :
    name ∈ field.kind.names := by
  induction found with
  | here => cases onWay
  | @member declared key field _ _ _ listed _ ih =>
      apply mem_namesIn_iff.mpr
      refine ⟨(key, field), listed, ?_⟩
      rcases List.mem_cons.mp onWay with here | deeper
      · exact .inl (Segment.member.inj here)
      · exact .inr (ih deeper)
  | item _ ih =>
      rcases List.mem_cons.mp onWay with here | deeper
      · cases here
      · exact ih deeper

end DocShape
