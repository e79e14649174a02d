import DocShape.Schema.Malformed
import DocShape.Proofs.Entries

/-! What a schema declares at any depth, the names it declares at each level,
and exchanging its resolvers. Neither names nor malformedness depend on what
the resolvers are. -/

set_option autoImplicit false

namespace DocShape

variable {ρ τ : Type}

theorem ItemKind.name_ne_array (kind : ItemKind ρ) : kind.name ≠ "array" := by
  cases kind with
  | scalar kind => cases kind <;> simp [ItemKind.name, Scalar.name]
  | object => simp [ItemKind.name]
  | custom => simp [ItemKind.name]

mutual

def ItemKind.Declares : ItemKind ρ → FieldKind ρ → Prop
  | .scalar _, _ => False
  | .object schema, wanted => schema.Declares wanted
  | .custom _, _ => False
termination_by structural kind => kind

def FieldKind.Declares : FieldKind ρ → FieldKind ρ → Prop
  | .item kind, wanted => .item kind = wanted ∨ kind.Declares wanted
  | .array element, wanted => .array element = wanted ∨ element.Declares wanted
termination_by structural kind => kind

/-- Some field is of this kind, at the outermost level or in an object that is a
field or an array item at any depth. -/
def Schema.Declares : Schema ρ → FieldKind ρ → Prop
  | ⟨fields⟩, wanted => DeclaredIn fields wanted
termination_by structural schema => schema

def DeclaredIn : List (String × Field ρ) → FieldKind ρ → Prop
  | [], _ => False
  | (_, ⟨kind, _⟩) :: rest, wanted => kind.Declares wanted ∨ DeclaredIn rest wanted
termination_by structural fields => fields

end

/-- An object field or an array item somewhere is an object without fields. -/
def Schema.Malformed (schema : Schema ρ) : Prop :=
  schema.Declares (.item (.object .empty)) ∨ schema.Declares (.array (.object .empty))

mutual

def ItemKind.UniqueNames : ItemKind ρ → Prop
  | .scalar _ => True
  | .object schema => schema.UniqueNames
  | .custom _ => True

def FieldKind.UniqueNames : FieldKind ρ → Prop
  | .item kind => kind.UniqueNames
  | .array element => element.UniqueNames

/-- No level of the schema declares a name twice. -/
def Schema.UniqueNames : Schema ρ → Prop
  | ⟨fields⟩ => (Entries.names fields).Nodup ∧ UniqueNamesIn fields

def UniqueNamesIn : List (String × Field ρ) → Prop
  | [] => True
  | (_, ⟨kind, _⟩) :: rest => kind.UniqueNames ∧ UniqueNamesIn rest

end

mutual

def ItemKind.decideUniqueNames : (kind : ItemKind ρ) → Decidable kind.UniqueNames
  | .scalar _ => .isTrue trivial
  | .object schema => schema.decideUniqueNames
  | .custom _ => .isTrue trivial

def FieldKind.decideUniqueNames : (kind : FieldKind ρ) → Decidable kind.UniqueNames
  | .item kind => kind.decideUniqueNames
  | .array element => element.decideUniqueNames

def Schema.decideUniqueNames : (schema : Schema ρ) → Decidable schema.UniqueNames
  | ⟨fields⟩ => @instDecidableAnd _ _ inferInstance (decideUniqueNamesIn fields)

def decideUniqueNamesIn : (fields : List (String × Field ρ)) → Decidable (UniqueNamesIn fields)
  | [] => .isTrue trivial
  | (_, ⟨kind, _⟩) :: rest =>
      @instDecidableAnd _ _ kind.decideUniqueNames (decideUniqueNamesIn rest)

end

instance (schema : Schema ρ) : Decidable schema.UniqueNames := schema.decideUniqueNames

/-- A schema that names its fields apart at every level, as every schema does that was
built by declaring fields or loaded. -/
structure Schema.Distinct (ρ : Type) extends Schema ρ where
  unique : toSchema.UniqueNames

instance : CoeOut (Schema.Distinct ρ) (Schema ρ) := ⟨Schema.Distinct.toSchema⟩

mutual

def ItemKind.map (change : ρ → τ) : ItemKind ρ → ItemKind τ
  | .scalar kind => .scalar kind
  | .object schema => .object (schema.map change)
  | .custom resolver => .custom (change resolver)

def FieldKind.map (change : ρ → τ) : FieldKind ρ → FieldKind τ
  | .item kind => .item (kind.map change)
  | .array element => .array (element.map change)

/-- The schema with every resolver exchanged. -/
def Schema.map (change : ρ → τ) : Schema ρ → Schema τ
  | ⟨fields⟩ => ⟨mapFields change fields⟩

def mapFields (change : ρ → τ) : List (String × Field ρ) → List (String × Field τ)
  | [] => []
  | (name, ⟨kind, optional⟩) :: rest =>
      (name, ⟨kind.map change, optional⟩) :: mapFields change rest

end

/-! ## Names -/

theorem uniqueNamesIn_iff {fields : List (String × Field ρ)} :
    UniqueNamesIn fields ↔ ∀ pair ∈ fields, pair.2.kind.UniqueNames := by
  induction fields with
  | nil => simp [UniqueNamesIn]
  | cons head rest ih =>
      obtain ⟨name, ⟨kind, optional⟩⟩ := head
      rw [UniqueNamesIn, ih, List.forall_mem_cons]

theorem uniqueNamesIn_insert {name : String} {field : Field ρ} {fields : List (String × Field ρ)}
    (unique : field.kind.UniqueNames) (others : UniqueNamesIn fields) :
    UniqueNamesIn (Entries.insert name field fields) := by
  obtain ⟨kind, optional⟩ := field
  induction fields with
  | nil => exact ⟨unique, trivial⟩
  | cons head rest ih =>
      obtain ⟨key, ⟨held, wasOptional⟩⟩ := head
      simp only [Entries.insert]
      split
      · exact ⟨unique, others.2⟩
      · exact ⟨others.1, ih others.2⟩

theorem Schema.uniqueNames_empty : (Schema.empty : Schema ρ).UniqueNames :=
  ⟨List.nodup_nil, trivial⟩

/-- Schemas are built by declaring fields, so each level names a field once. -/
theorem Schema.uniqueNames_insert {name : String} {field : Field ρ} {schema : Schema ρ}
    (unique : field.kind.UniqueNames) (others : schema.UniqueNames) :
    (schema.insert name field).UniqueNames := by
  obtain ⟨fields⟩ := schema
  exact ⟨Entries.nodup_names_insert others.1, uniqueNamesIn_insert unique others.2⟩

theorem Schema.uniqueNames_ofPairs {pairs : List (String × Field ρ)}
    (unique : ∀ pair ∈ pairs, pair.2.kind.UniqueNames) : (Schema.ofPairs pairs).UniqueNames := by
  suffices each : ∀ fields : List (String × Field ρ), (Schema.mk fields).UniqueNames →
      (Schema.mk (pairs.foldl (fun fields pair => Entries.insert pair.1 pair.2 fields)
        fields)).UniqueNames from each [] Schema.uniqueNames_empty
  induction pairs with
  | nil => exact fun _ held => held
  | cons pair pairs ih =>
      obtain ⟨here, later⟩ := List.forall_mem_cons.mp unique
      intro fields held
      exact ih later _ (Schema.uniqueNames_insert here held)

theorem names_mapFields (change : ρ → τ) (fields : List (String × Field ρ)) :
    Entries.names (mapFields change fields) = Entries.names fields := by
  induction fields with
  | nil => rfl
  | cons head rest ih =>
      obtain ⟨name, ⟨kind, optional⟩⟩ := head
      simp [mapFields, ih]

def Field.map (change : ρ → τ) (field : Field ρ) : Field τ :=
  ⟨field.kind.map change, field.optional⟩

theorem mapFields_cons (change : ρ → τ) (name : String) (field : Field ρ)
    (fields : List (String × Field ρ)) :
    mapFields change ((name, field) :: fields) =
      (name, field.map change) :: mapFields change fields := by
  cases field
  rfl

theorem mapFields_insert (change : ρ → τ) (name : String) (field : Field ρ)
    (fields : List (String × Field ρ)) :
    mapFields change (Entries.insert name field fields) =
      Entries.insert name (field.map change) (mapFields change fields) := by
  induction fields with
  | nil => exact mapFields_cons change name field []
  | cons head rest ih =>
      obtain ⟨key, held⟩ := head
      by_cases here : key = name <;> simp [Entries.insert, mapFields_cons, here, ih]

/-- Resolvers may be exchanged before fields of repeated names are put together. -/
theorem Schema.map_ofPairs (change : ρ → τ) (pairs : List (String × Field ρ)) :
    (Schema.ofPairs pairs).map change = .ofPairs (mapFields change pairs) := by
  suffices each : ∀ fields : List (String × Field ρ),
      mapFields change
          (pairs.foldl (fun fields pair => Entries.insert pair.1 pair.2 fields) fields) =
        (mapFields change pairs).foldl (fun fields pair => Entries.insert pair.1 pair.2 fields)
          (mapFields change fields) from congrArg Schema.mk (each [])
  induction pairs with
  | nil => exact fun _ => rfl
  | cons pair pairs ih =>
      intro fields
      rw [mapFields_cons, List.foldl_cons, List.foldl_cons, ih, mapFields_insert]

mutual

theorem ItemKind.map_id : (kind : ItemKind ρ) → kind.map id = kind
  | .scalar _ => rfl
  | .object ⟨fields⟩ => congrArg (fun fields => ItemKind.object ⟨fields⟩) (mapFields_id fields)
  | .custom _ => rfl

theorem FieldKind.map_id : (kind : FieldKind ρ) → kind.map id = kind
  | .item kind => congrArg FieldKind.item (ItemKind.map_id kind)
  | .array element => congrArg FieldKind.array (ItemKind.map_id element)

theorem mapFields_id : (fields : List (String × Field ρ)) → mapFields id fields = fields
  | [] => rfl
  | (name, ⟨kind, optional⟩) :: rest => by
      rw [mapFields, FieldKind.map_id kind, mapFields_id rest]

end

theorem Schema.map_id (schema : Schema ρ) : schema.map id = schema := by
  obtain ⟨fields⟩ := schema
  exact congrArg Schema.mk (mapFields_id fields)

theorem contains_mapFields (change : ρ → τ) (name : String) (fields : List (String × Field ρ)) :
    Entries.contains name (mapFields change fields) = Entries.contains name fields := by
  rw [Bool.eq_iff_iff, Entries.contains_iff, Entries.contains_iff, names_mapFields]

mutual

theorem ItemKind.uniqueNames_map (change : ρ → τ) : (kind : ItemKind ρ) →
    kind.UniqueNames → (kind.map change).UniqueNames
  | .scalar _, _ => trivial
  | .object ⟨fields⟩, unique => by
      simp only [ItemKind.map, Schema.map, ItemKind.UniqueNames, Schema.UniqueNames] at unique ⊢
      exact ⟨names_mapFields change fields ▸ unique.1, uniqueNamesIn_map change fields unique.2⟩
  | .custom _, _ => trivial

theorem FieldKind.uniqueNames_map (change : ρ → τ) : (kind : FieldKind ρ) →
    kind.UniqueNames → (kind.map change).UniqueNames
  | .item kind, unique => ItemKind.uniqueNames_map change kind unique
  | .array element, unique => ItemKind.uniqueNames_map change element unique

theorem uniqueNamesIn_map (change : ρ → τ) : (fields : List (String × Field ρ)) →
    UniqueNamesIn fields → UniqueNamesIn (mapFields change fields)
  | [], _ => trivial
  | (_, ⟨kind, _⟩) :: rest, unique =>
      ⟨FieldKind.uniqueNames_map change kind unique.1, uniqueNamesIn_map change rest unique.2⟩

end

theorem Schema.uniqueNames_map (change : ρ → τ) {schema : Schema ρ}
    (unique : schema.UniqueNames) : (schema.map change).UniqueNames :=
  ItemKind.uniqueNames_map change (.object schema) unique

end DocShape
