import DocShape.Proofs.Schema

/-! Every nested object without fields, in order of declaration. The search for
the first one finds the head of the list, and it finds one exactly in a
malformed schema. -/

set_option autoImplicit false

namespace DocShape

variable {ρ τ : Type}

mutual

def ItemKind.emptyObjects (path : String) : ItemKind ρ → List String
  | .scalar _ => []
  | .object ⟨[]⟩ => [path]
  | .object ⟨field :: fields⟩ => emptyObjectsIn path (field :: fields)
  | .custom _ => []

def FieldKind.emptyObjects (path : String) : FieldKind ρ → List String
  | .item kind => kind.emptyObjects path
  | .array element => element.emptyObjects (KeyPath.anyItem path)

def emptyObjectsIn (path : String) : List (String × Field ρ) → List String
  | [] => []
  | (name, ⟨kind, _⟩) :: rest =>
      kind.emptyObjects (KeyPath.join path name) ++ emptyObjectsIn path rest

end

/-- The paths of all nested objects that declare no fields. -/
def Schema.emptyObjects (path : String) (schema : Schema ρ) : List String :=
  emptyObjectsIn path schema.fields

theorem emptyObjectsIn_eq_flatMap (path : String) (fields : List (String × Field ρ)) :
    emptyObjectsIn path fields =
      fields.flatMap fun pair => pair.2.kind.emptyObjects (KeyPath.join path pair.1) := by
  induction fields with
  | nil => rfl
  | cons head rest ih =>
      obtain ⟨name, ⟨kind, optional⟩⟩ := head
      rw [emptyObjectsIn, ih, List.flatMap_cons]

theorem ItemKind.emptyObjects_of_declares {fields : List (String × Field ρ)}
    (declares : fields ≠ []) (path : String) :
    (ItemKind.object ⟨fields⟩).emptyObjects path = emptyObjectsIn path fields := by
  cases fields with
  | nil => exact absurd rfl declares
  | cons field fields => rfl

mutual

theorem ItemKind.emptyObject?_eq_head? : (kind : ItemKind ρ) → ∀ path,
    kind.emptyObject? path = (kind.emptyObjects path).head?
  | .scalar _, _ => rfl
  | .object ⟨[]⟩, _ => rfl
  | .object ⟨(name, ⟨kind, optional⟩) :: rest⟩, path => by
      simp only [ItemKind.emptyObject?, ItemKind.emptyObjects]
      exact emptyObjectIn?_eq_head? _ path
  | .custom _, _ => rfl

theorem FieldKind.emptyObject?_eq_head? : (kind : FieldKind ρ) → ∀ path,
    kind.emptyObject? path = (kind.emptyObjects path).head?
  | .item kind, path => ItemKind.emptyObject?_eq_head? kind path
  | .array element, path => ItemKind.emptyObject?_eq_head? element (KeyPath.anyItem path)

theorem emptyObjectIn?_eq_head? : (fields : List (String × Field ρ)) → ∀ path,
    emptyObjectIn? path fields = (emptyObjectsIn path fields).head?
  | [], _ => rfl
  | (name, ⟨kind, _⟩) :: rest, path => by
      rw [emptyObjectIn?, emptyObjectsIn, List.head?_append,
        FieldKind.emptyObject?_eq_head? kind, emptyObjectIn?_eq_head? rest]
      cases (kind.emptyObjects (KeyPath.join path name)).head? <;> rfl

end

theorem Schema.emptyObject?_eq_head? (schema : Schema ρ) (path : String) :
    schema.emptyObject? path = (schema.emptyObjects path).head? :=
  emptyObjectIn?_eq_head? schema.fields path

mutual

theorem ItemKind.emptyObjects_eq_nil_iff : (kind : ItemKind ρ) → ∀ path,
    kind.emptyObjects path = [] ↔ kind ≠ .object .empty ∧
      ¬ kind.Declares (.item (.object .empty)) ∧ ¬ kind.Declares (.array (.object .empty))
  | .scalar _, _ => by simp [ItemKind.emptyObjects, ItemKind.Declares]
  | .object ⟨[]⟩, _ => by simp [ItemKind.emptyObjects, Schema.empty]
  | .object ⟨(name, ⟨kind, optional⟩) :: rest⟩, path => by
      have agrees := emptyObjectsIn_eq_nil_iff ((name, ⟨kind, optional⟩) :: rest) path
      simpa [ItemKind.emptyObjects, ItemKind.Declares, Schema.Declares, Schema.empty] using agrees
  | .custom _, _ => by simp [ItemKind.emptyObjects, ItemKind.Declares]

theorem FieldKind.emptyObjects_eq_nil_iff : (kind : FieldKind ρ) → ∀ path,
    kind.emptyObjects path = [] ↔ ¬ kind.Declares (.item (.object .empty)) ∧
      ¬ kind.Declares (.array (.object .empty))
  | .item kind, path => by
      simp [FieldKind.emptyObjects, FieldKind.Declares, ItemKind.emptyObjects_eq_nil_iff kind,
        and_assoc]
  | .array element, path => by
      simp [FieldKind.emptyObjects, FieldKind.Declares,
        ItemKind.emptyObjects_eq_nil_iff element, and_left_comm]

theorem emptyObjectsIn_eq_nil_iff : (fields : List (String × Field ρ)) → ∀ path,
    emptyObjectsIn path fields = [] ↔ ¬ DeclaredIn fields (.item (.object .empty)) ∧
      ¬ DeclaredIn fields (.array (.object .empty))
  | [], _ => by simp [emptyObjectsIn, DeclaredIn]
  | (name, ⟨kind, _⟩) :: rest, path => by
      simp only [emptyObjectsIn, DeclaredIn, List.append_eq_nil_iff, not_or,
        FieldKind.emptyObjects_eq_nil_iff kind, emptyObjectsIn_eq_nil_iff rest]
      exact and_and_and_comm

end

theorem Schema.emptyObjects_eq_nil_iff (schema : Schema ρ) (path : String) :
    schema.emptyObjects path = [] ↔ ¬ schema.Malformed := by
  obtain ⟨fields⟩ := schema
  simp only [Schema.Malformed, Schema.Declares, not_or]
  exact emptyObjectsIn_eq_nil_iff fields path

theorem Schema.emptyObject?_eq_none_iff {schema : Schema ρ} {path : String} :
    schema.emptyObject? path = none ↔ ¬ schema.Malformed := by
  rw [Schema.emptyObject?_eq_head?, List.head?_eq_none_iff, Schema.emptyObjects_eq_nil_iff]

mutual

theorem ItemKind.emptyObject?_map (change : ρ → τ) : (kind : ItemKind ρ) → ∀ path,
    (kind.map change).emptyObject? path = kind.emptyObject? path
  | .scalar _, _ => rfl
  | .object ⟨[]⟩, _ => rfl
  | .object ⟨(name, ⟨kind, optional⟩) :: rest⟩, path =>
      emptyObjectIn?_map change ((name, ⟨kind, optional⟩) :: rest) path
  | .custom _, _ => rfl

theorem FieldKind.emptyObject?_map (change : ρ → τ) : (kind : FieldKind ρ) → ∀ path,
    (kind.map change).emptyObject? path = kind.emptyObject? path
  | .item kind, path => ItemKind.emptyObject?_map change kind path
  | .array element, path => ItemKind.emptyObject?_map change element (KeyPath.anyItem path)

theorem emptyObjectIn?_map (change : ρ → τ) : (fields : List (String × Field ρ)) → ∀ path,
    emptyObjectIn? path (mapFields change fields) = emptyObjectIn? path fields
  | [], _ => rfl
  | (name, ⟨kind, _⟩) :: rest, path => by
      rw [mapFields, emptyObjectIn?, emptyObjectIn?, FieldKind.emptyObject?_map change kind,
        emptyObjectIn?_map change rest]

end

theorem Schema.emptyObject?_map (change : ρ → τ) (schema : Schema ρ) (path : String) :
    (schema.map change).emptyObject? path = schema.emptyObject? path := by
  obtain ⟨fields⟩ := schema
  exact emptyObjectIn?_map change fields path

theorem Schema.malformed_map (change : ρ → τ) {schema : Schema ρ} :
    (schema.map change).Malformed ↔ schema.Malformed := by
  rw [← not_iff_not, ← Schema.emptyObjects_eq_nil_iff schema "",
    ← Schema.emptyObjects_eq_nil_iff (schema.map change) "", ← List.head?_eq_none_iff,
    ← List.head?_eq_none_iff, ← Schema.emptyObject?_eq_head?, ← Schema.emptyObject?_eq_head?,
    Schema.emptyObject?_map]

end DocShape
