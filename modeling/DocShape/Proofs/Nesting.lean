import DocShape.Proofs.ResolverCalls
import DocShape.Proofs.RootKey

/-! A document under one declared name, and documents in an array under one declared
name. Checking them is checking each document by itself, where the path to it is the
root key: in the same order, with the same calls and up to the same error. -/

set_option autoImplicit false

namespace DocShape

open Json (Value)

variable {σ ρ : Type}

/-! ## Schemas of one field -/

theorem Schema.emptyObject?_item (schema : Schema ρ) (declares : schema.fields ≠ [])
    (path : String) : (ItemKind.object schema).emptyObject? path = schema.emptyObject? path := by
  obtain ⟨fields⟩ := schema
  cases fields with
  | nil => exact absurd rfl declares
  | cons field fields => rfl

theorem Schema.emptyObject?_single (name : String) (field : Field ρ) (path : String) :
    (Schema.empty.insert name field).emptyObject? path =
      field.kind.emptyObject? (KeyPath.join path name) := by
  obtain ⟨kind, optional⟩ := field
  rw [Schema.emptyObject?, Schema.insert, Schema.empty, Entries.insert, emptyObjectIn?]
  cases kind.emptyObject? (KeyPath.join path name) <;> rfl

/-- The one member is declared and held, so that its check is all there is to do. -/
theorem walkDocument_single (name : String) (kind : FieldKind (Resolver σ)) (options : Options)
    {value : Value} (held : value ≠ .null) :
    walkDocument (Schema.empty.insert name (.required kind)) options (.object [(name, value)]) =
      (fun checked => .object [(name, checked)]) <$>
        Walk.field options.strict kind value (KeyPath.join options.path name) := by
  have declared : Walk.undeclared? [(name, Field.required kind)] [(name, value)] = none := by
    simp [Walk.undeclared?, Entries.contains, Entries.get?]
  have found : Entries.get? name [(name, value)] = some value := by simp [Entries.get?]
  have once (checked : Value) :
      Entries.insert name checked [(name, value)] = [(name, checked)] := by
    simp [Entries.insert]
  rw [walkDocument, Schema.insert, Schema.empty, Entries.insert, Walk.object, declared, ite_self,
    Field.required, Walk.fields_cons_present found held]
  simp [Walk.fields, once]

/-! ## Documents at a path -/

/-- An item is walked as a document is that has its path for a root key. -/
theorem walkDocument_item (strict : Bool) (schema : Schema (Resolver σ)) {place : String}
    (notEmpty : place ≠ "") (value : Value) :
    walkDocument schema ⟨strict, some place⟩ value =
      Walk.item strict (.object schema) value place := by
  have named : Options.documentPlace ⟨strict, some place⟩ = place :=
    if_neg (mt String.isEmpty_iff.mp notEmpty)
  cases value with
  | object members => rfl
  | null | bool | number | string | array =>
      rw [walkDocument_other _ _ (by simp), named]
      rfl

/-- Items that are not null are checked one after another, each at its own place. -/
theorem Walk.items_eq_mapM (check : Value → String → Walk σ Value) (path : String) (start : Nat)
    {values : List Value} (held : ∀ value ∈ values, value ≠ .null) :
    items check path start values =
      (values.zipIdx start).mapM fun entry => check entry.1 (KeyPath.item path entry.2) := by
  induction values generalizing start with
  | nil => rfl
  | cons value rest ih =>
      obtain ⟨here, later⟩ := List.forall_mem_cons.mp held
      rw [items, if_neg (mt Json.Value.isNull_iff.mp here), List.zipIdx_cons, List.mapM_cons,
        ih (start + 1) later]

/-! ## Nested documents -/

/-- Nested under a name, a document is checked as it is by itself under the longer root key.
So is each of the documents in an array, in order up to the first error. There the schema
must not be malformed: that error names all items at once and none of them by its index. -/
theorem validate_nest (schema : Schema (Resolver σ)) (declares : schema.fields ≠ [])
    (name : String) (options : Options) :
    (∀ members, validate (schema.nest name) options (.object [(name, .object members)]) =
      Except.map (fun out => .object [(name, out)]) <$>
        validate schema ⟨options.strict, some (KeyPath.join options.path name)⟩
          (.object members)) ∧
    (¬ schema.Malformed → ∀ values : List Value, (∀ value ∈ values, value ≠ .null) →
      validate (Schema.empty.insert name (.array (.object schema))) options
          (.object [(name, .array values)]) =
        Except.map (fun outs => .object [(name, .array outs)]) <$>
          (values.zipIdx.mapM fun entry => (ExceptT.mk (validate schema
            ⟨options.strict, some (KeyPath.item (KeyPath.join options.path name) entry.2)⟩
            entry.1) : Walk σ Value)).run) := by
  let place := KeyPath.join options.path name
  refine ⟨?object, ?array⟩
  case object =>
    intro members
    have search : (schema.nest name).emptyObject? options.path = schema.emptyObject? place :=
      (Schema.emptyObject?_single name _ _).trans (schema.emptyObject?_item declares place)
    cases empty : schema.emptyObject? place with
    | some path =>
        have below : schema.emptyObject? (Options.path ⟨options.strict, some place⟩) = some path :=
          empty
        rw [validate_malformed (search.trans empty), validate_malformed below]
        rfl
    | none =>
        have below : schema.emptyObject? (Options.path ⟨options.strict, some place⟩) = none := empty
        rw [validate_wellFormed (search.trans empty), validate_wellFormed below, Schema.nest,
          Field.object, walkDocument_single name _ options (by simp), ExceptT.run_map]
        rfl
  case array =>
    intro wellFormed values held
    have search : (Schema.empty.insert name (.array (.object schema))).emptyObject? options.path =
        none :=
      (Schema.emptyObject?_single name _ _).trans
        ((schema.emptyObject?_item declares _).trans
          (Schema.emptyObject?_eq_none_iff.mpr wellFormed))
    have each (entry : Value × Nat) :
        Walk.item options.strict (.object schema) entry.1 (KeyPath.item place entry.2) =
          ExceptT.mk
            (validate schema ⟨options.strict, some (KeyPath.item place entry.2)⟩ entry.1) := by
      rw [validate_wellFormed (Schema.emptyObject?_eq_none_iff.mpr wellFormed),
        walkDocument_item options.strict schema (KeyPath.item_ne_empty place entry.2)]
      rfl
    rw [validate_wellFormed search, Field.array, walkDocument_single name _ options (by simp),
      Walk.field, Walk.items_eq_mapM _ _ 0 held]
    simp only [each, place, bind_pure_comp, Functor.map_map, ExceptT.run_map]

def Schema.seat : Schema (Resolver Nat) :=
  ⟨[("id", .custom (.limited 2)), ("aisle", .withOptional true .bool)]⟩

def seat (id : String) : Value :=
  .object [("id", .string id)]

/-- With two calls allowed, the third of the seats fails, and it is not the last. -/
theorem validate_nest_seats :
    Schema.seat.fields ≠ [] ∧ ¬ Schema.seat.Malformed ∧
      (validate (Schema.seat.nest "seat") ⟨true, some "body"⟩
          (.object [("seat", seat "1a")])).run 0 = (.ok (.object [("seat", seat "1a")]), 1) ∧
      (validate (Schema.empty.insert "seats" (.array (.object .seat))) ⟨true, some "body"⟩
          (.object [("seats", .array [seat "1a", seat "1b", seat "1c", .bool true])])).run 0 =
        (.error (.resolverFailed "body.seats[2].id" "no call left for body.seats[2].id"), 2) := by
  have declares : Schema.seat.fields ≠ [] := List.cons_ne_nil _ _
  have wellFormed : ¬ Schema.seat.Malformed := (Schema.emptyObjects_eq_nil_iff _ "").mp rfl
  have inObject := (validate_nest Schema.seat declares "seat" ⟨true, some "body"⟩).1
    [("id", .string "1a")]
  have inArray := (validate_nest Schema.seat declares "seats" ⟨true, some "body"⟩).2 wellFormed
    [seat "1a", seat "1b", seat "1c", .bool true] (by simp [seat])
  refine ⟨declares, wellFormed, ?_, ?_⟩
  · rw [seat, inObject]
    rfl
  · rw [inArray]
    rfl

end DocShape
