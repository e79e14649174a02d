import Mathlib.Data.Finset.Card
import DocShape.Proofs.Schema

/-! Schemas as maps in order of insertion. Whatever was done to build a schema, it lists each
name where it was declared first, with the field that was declared last. -/

set_option autoImplicit false

namespace DocShape

variable {ρ : Type}

namespace Schema

/-- One thing that is done to build a schema. Collecting pairs starts afresh. -/
inductive Edit (ρ : Type) where
  | insert (name : String) (added : Field ρ)
  | field (name : String) (added : Field ρ)
  | collect (pairs : List (String × Field ρ))

namespace Edit

def apply (schema : Schema ρ) : Edit ρ → Schema ρ
  | .insert name added => schema.insert name added
  | .field name added => schema.field name added
  | .collect pairs => .ofPairs pairs

/-- What has been declared since the last collection, if an edit follows. -/
def record (declared : List (String × Field ρ)) : Edit ρ → List (String × Field ρ)
  | .insert name added => declared ++ [(name, added)]
  | .field name added => declared ++ [(name, added)]
  | .collect pairs => pairs

/-- What the edits declare from the last collection on, in order and with repetitions. -/
def declared (edits : List (Edit ρ)) : List (String × Field ρ) :=
  edits.foldl record []

private theorem apply_ofPairs (edit : Edit ρ) (pairs : List (String × Field ρ)) :
    edit.apply (.ofPairs pairs) = .ofPairs (edit.record pairs) := by
  cases edit with
  | insert name added => exact congrArg Schema.mk (Entries.ofPairs_append pairs name added).symm
  | field name added => exact congrArg Schema.mk (Entries.ofPairs_append pairs name added).symm
  | collect pairs => rfl

end Edit

/-- The schema that the edits lead to from the empty one. -/
def build (edits : List (Edit ρ)) : Schema ρ :=
  edits.foldl Edit.apply empty

theorem build_eq_ofPairs (edits : List (Edit ρ)) :
    build edits = .ofPairs (Edit.declared edits) := by
  suffices each : ∀ pairs, edits.foldl Edit.apply (.ofPairs pairs) =
      .ofPairs (edits.foldl Edit.record pairs) from each []
  induction edits with
  | nil => exact fun _ => rfl
  | cons edit edits ih =>
      intro pairs
      rw [List.foldl_cons, List.foldl_cons, edit.apply_ofPairs, ih]

theorem foldl_field (pairs : List (String × Field ρ)) (schema : Schema ρ) :
    pairs.foldl (fun schema pair => schema.field pair.1 pair.2) schema =
      ⟨pairs.foldl (fun fields pair => Entries.insert pair.1 pair.2 fields) schema.fields⟩ := by
  induction pairs generalizing schema with
  | nil =>
      cases schema
      rfl
  | cons pair pairs ih => exact ih _

/-- The schema is the map in order of insertion that the declarations lead to, and lookups,
size and listing are those of this map. -/
structure Records (schema : Schema ρ) (declared : List (String × Field ρ)) : Prop where
  once : (Entries.names schema.fields).Nodup
  inOrder : Entries.names schema.fields = (Entries.names declared).eraseDups
  latest : ∀ name field, (name, field) ∈ schema.fields ↔ Entries.last? name declared = some field
  lookup : ∀ name field, schema.get? name = some field ↔ (name, field) ∈ schema.fields
  contains : ∀ name, schema.contains name = true ↔ name ∈ Entries.names schema.fields
  size : schema.size = (Entries.names declared).toFinset.card

theorem ofPairs_records (pairs : List (String × Field ρ)) :
    (Schema.ofPairs pairs).Records pairs := by
  have once : (Entries.names (Entries.ofPairs pairs)).Nodup := Entries.nodup_names_ofPairs pairs
  have inOrder := Entries.names_ofPairs pairs
  have listed_iff (name : String) (field : Field ρ) :
      Entries.get? name (Entries.ofPairs pairs) = some field ↔
        (name, field) ∈ Entries.ofPairs pairs :=
    ⟨Entries.mem_of_get?, Entries.get?_of_mem once⟩
  refine ⟨once, inOrder, ?latest, listed_iff, fun _ => Entries.contains_iff, ?size⟩
  case latest =>
    intro name field
    rw [← Entries.get?_ofPairs]
    exact (listed_iff name field).symm
  case size =>
    have sameNames : (Entries.names (Entries.ofPairs pairs)).toFinset =
        (Entries.names pairs).toFinset := by
      ext name
      rw [List.mem_toFinset, List.mem_toFinset, inOrder, List.mem_eraseDups]
    rw [← sameNames, List.toFinset_card_of_nodup once]
    simp [Schema.size, Schema.ofPairs, Entries.names]

/-- A schema lists each name that was declared since the last collection once, in the order of
the first declarations, with the field of the last one. To declare a name again exchanges
its field in place, and to collect pairs is to declare them in a row. -/
theorem build_records (edits : List (Edit ρ)) :
    (build edits).Records (Edit.declared edits) ∧
    (∀ name field, (build edits).contains name = true →
      ((build edits).insert name field).fields =
        (build edits).fields.map fun pair => if pair.1 = name then (name, field) else pair) ∧
    (∀ pairs : List (String × Field ρ), Schema.ofPairs pairs =
      pairs.foldl (fun schema pair => schema.field pair.1 pair.2) empty) := by
  have records : (build edits).Records (Edit.declared edits) :=
    build_eq_ofPairs edits ▸ ofPairs_records _
  refine ⟨records, ?again, ?collect⟩
  case again =>
    intro name field known
    exact Entries.insert_of_mem_names records.once ((records.contains name).mp known) field
  case collect =>
    intro pairs
    exact (foldl_field pairs empty).symm

def albumEdits : List (Edit Unit) :=
  [.field "draft" .bool,
    .collect [("title", .string), ("year", .number), ("title", .bool)],
    .insert "tracks" (.array (.scalar .string)),
    .field "year" (.withOptional true .number)]

/-- The draft is gone with the collection, and the title stays in front. -/
theorem build_records_album :
    let album := build albumEdits
    album.Records (Edit.declared albumEdits) ∧
      album.fields = [("title", .bool), ("year", .withOptional true .number),
        ("tracks", .array (.scalar .string))] ∧
      album.contains "year" = true ∧ album.contains "draft" = false ∧
      (album.insert "year" .string).fields = [("title", .bool), ("year", .string),
        ("tracks", .array (.scalar .string))] := by
  intro album
  have known : album.contains "year" = true := rfl
  obtain ⟨records, again, -⟩ := build_records albumEdits
  exact ⟨records, rfl, known, rfl, (again "year" .string known).trans rfl⟩

end Schema

end DocShape
