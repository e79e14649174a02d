import DocShape.Proofs.EntryForms

/-! The entries that a definition leads to, in the order of the document and each
before those inside it. Which of them a loader accepts depends on the members of
the entry alone. -/

set_option autoImplicit false

namespace DocShape

open Json (Value)

variable {ρ : Type}

namespace Entry

/-- The entries of the fields, where the type is that of objects. -/
def declaredFields? (value : Value) : Option (List (String × Value)) := do
  let members ← written? value
  let type ← (Entries.get? "type" members).bind text?
  if type = "object" then (Entries.get? "fields" members).bind members? else none

/-- The entry of the items, where the type is that of arrays. -/
def declaredElement? (value : Value) : Option Value := do
  let members ← written? value
  let type ← (Entries.get? "type" members).bind text?
  if type = "array" then (Entries.get? "element" members).bind present? else none

private theorem sizeOf_lt_of_written {value part : Value} {members : List (String × Value)}
    {name : String} (written : written? value = some members)
    (found : Entries.get? name members = some part) : sizeOf part < sizeOf value := by
  cases value with
  | object held =>
      cases written
      have := sizeOf_lt_of_get? found
      simp only [Value.object.sizeOf_spec]
      omega
  | array items =>
      simp only [written?] at written
      split at written
      · cases written
        have := sizeOf_lt_of_get?_zip found
        simp only [Value.array.sizeOf_spec]
        omega
      · cases written
  | null | bool | number | string => cases written

private theorem sizeOf_declaredFields_lt {value : Value} {fields : List (String × Value)}
    (held : declaredFields? value = some fields) : sizeOf fields < sizeOf value := by
  obtain ⟨members, written, held⟩ := Option.bind_eq_some_iff.mp held
  obtain ⟨type, -, held⟩ := Option.bind_eq_some_iff.mp held
  split at held
  · obtain ⟨part, found, holds⟩ := Option.bind_eq_some_iff.mp held
    exact Nat.lt_trans (sizeOf_lt_of_members? holds) (sizeOf_lt_of_written written found)
  · cases held

private theorem sizeOf_declaredElement_lt {value element : Value}
    (held : declaredElement? value = some element) : sizeOf element < sizeOf value := by
  obtain ⟨members, written, held⟩ := Option.bind_eq_some_iff.mp held
  obtain ⟨type, -, held⟩ := Option.bind_eq_some_iff.mp held
  split at held
  · obtain ⟨part, found, holds⟩ := Option.bind_eq_some_iff.mp held
    exact Nat.lt_of_le_of_lt (sizeOf_le_of_present? holds) (sizeOf_lt_of_written written found)
  · cases held

section Decoded

variable {value : Value} {entry : Entry} (decoded : ofValue value = .ok entry)

include decoded

private theorem declaredFields?_of_ofValue :
    declaredFields? value = if entry.type = "object" then entry.fields else none := by
  obtain ⟨members, written, decodedMembers⟩ := written_of_ofValue decoded
  obtain ⟨-, type, typed, rfl⟩ := ofMembers_eq_ok_iff.mp decodedMembers
  simp only [declaredFields?, written, typed, text?, Option.bind_eq_bind, Option.bind_some]
  rfl

private theorem declaredElement?_of_ofValue :
    declaredElement? value = if entry.type = "array" then entry.element else none := by
  obtain ⟨members, written, decodedMembers⟩ := written_of_ofValue decoded
  obtain ⟨-, type, typed, rfl⟩ := ofMembers_eq_ok_iff.mp decodedMembers
  simp only [declaredElement?, written, typed, text?, Option.bind_eq_bind, Option.bind_some]
  rfl

end Decoded

end Entry

/-- An entry at its declaration path. The entry of an array's items stands apart
from those of fields. -/
structure PlacedEntry where
  path : String
  inArray : Bool
  value : Value

mutual

/-- An entry, followed by the entries that it leads to. -/
def entriesFrom (path : String) (inArray : Bool) (value : Value) : List PlacedEntry :=
  ⟨path, inArray, value⟩ ::
    match held : Entry.declaredFields? value with
    | some fields =>
        have := Entry.sizeOf_declaredFields_lt held
        entriesIn path fields
    | none =>
        match held : Entry.declaredElement? value with
        | some element =>
            have := Entry.sizeOf_declaredElement_lt held
            entriesFrom (KeyPath.anyItem path) true element
        | none => []
termination_by sizeOf value

def entriesIn (path : String) : List (String × Value) → List PlacedEntry
  | [] => []
  | (name, value) :: rest =>
      entriesFrom (KeyPath.join path name) false value ++ entriesIn path rest
termination_by entries => sizeOf entries

end

section

variable {path : String} {inArray : Bool} {value : Value}

theorem entriesFrom_eq_cons (path : String) (inArray : Bool) (value : Value) :
    ∃ below, entriesFrom path inArray value = ⟨path, inArray, value⟩ :: below := by
  rw [entriesFrom]
  exact ⟨_, rfl⟩

theorem entriesFrom_fields {fields : List (String × Value)}
    (held : Entry.declaredFields? value = some fields) :
    entriesFrom path inArray value = ⟨path, inArray, value⟩ :: entriesIn path fields := by
  rw [entriesFrom]
  split <;> simp_all

theorem entriesFrom_element {element : Value} (noFields : Entry.declaredFields? value = none)
    (held : Entry.declaredElement? value = some element) :
    entriesFrom path inArray value =
      ⟨path, inArray, value⟩ :: entriesFrom (KeyPath.anyItem path) true element := by
  rw [entriesFrom]
  split
  · simp_all
  · split <;> simp_all

theorem entriesFrom_leaf (noFields : Entry.declaredFields? value = none)
    (noElement : Entry.declaredElement? value = none) :
    entriesFrom path inArray value = [⟨path, inArray, value⟩] := by
  rw [entriesFrom]
  split
  · simp_all
  · split <;> simp_all

end

section Decoded

variable {path : String} {inArray : Bool} {value : Value} {entry : Entry}
  (decoded : Entry.ofValue value = .ok entry)

include decoded

theorem entriesFrom_of_object {fields : List (String × Value)} (isObject : entry.type = "object")
    (held : entry.fields = some fields) :
    entriesFrom path inArray value = ⟨path, inArray, value⟩ :: entriesIn path fields := by
  apply entriesFrom_fields
  simp [Entry.declaredFields?_of_ofValue decoded, isObject, held]

theorem entriesFrom_of_array {element : Value} (isArray : entry.type = "array")
    (held : entry.element = some element) :
    entriesFrom path inArray value =
      ⟨path, inArray, value⟩ :: entriesFrom (KeyPath.anyItem path) true element := by
  apply entriesFrom_element
  · simp [Entry.declaredFields?_of_ofValue decoded, isArray]
  · simp [Entry.declaredElement?_of_ofValue decoded, isArray, held]

theorem entriesFrom_of_scalar (noObject : entry.type ≠ "object") (noArray : entry.type ≠ "array") :
    entriesFrom path inArray value = [⟨path, inArray, value⟩] := by
  apply entriesFrom_leaf
  · simp [Entry.declaredFields?_of_ofValue decoded, noObject]
  · simp [Entry.declaredElement?_of_ofValue decoded, noArray]

end Decoded

/-- The entries that a definition leads to. -/
def Json.Value.entries (definition : Value) : List PlacedEntry :=
  match Loader.definedFields? definition with
  | some fields => entriesIn "" fields
  | none => []

namespace PlacedEntry

/-- The faults that an entry has of itself. -/
inductive Faulty (loader : Loader ρ) (one : PlacedEntry) : Prop where
  | noObject (other : ∀ members, one.value ≠ .object members)
  | members {members : List (String × Value)} (held : one.value = .object members)
      (misdeclared : Entry.Misdeclared loader one.inArray members)

/-- The value decodes to an entry that the loader takes. -/
def Accepted (loader : Loader ρ) (one : PlacedEntry) : Prop :=
  ∃ entry, Entry.ofValue one.value = .ok entry ∧ entry.Sound loader one.inArray

theorem accepted_iff_sound {loader : Loader ρ} {path : String} {inArray : Bool} {value : Value}
    {entry : Entry} (decoded : Entry.ofValue value = .ok entry) :
    (⟨path, inArray, value⟩ : PlacedEntry).Accepted loader ↔ entry.Sound loader inArray := by
  constructor
  · rintro ⟨other, decodedOther, sound⟩
    rw [decoded] at decodedOther
    cases decodedOther
    exact sound
  · intro sound
    exact ⟨entry, decoded, sound⟩

theorem accepted_iff {loader : Loader ρ} {one : PlacedEntry} :
    one.Accepted loader ↔ ∃ members, Entry.written? one.value = some members ∧
      ¬ Entry.Misdeclared loader one.inArray members := by
  constructor
  · rintro ⟨entry, decoded, sound⟩
    obtain ⟨members, written, decodedMembers⟩ := Entry.written_of_ofValue decoded
    exact ⟨members, written, Entry.not_misdeclared_iff.mpr ⟨entry, decodedMembers, sound⟩⟩
  · rintro ⟨members, written, keeps⟩
    obtain ⟨entry, decoded, sound⟩ := Entry.not_misdeclared_iff.mp keeps
    exact ⟨entry, (Entry.ofValue_of_written written).trans decoded, sound⟩

theorem accepted_iff_not_faulty {loader : Loader ρ} {one : PlacedEntry}
    (noArray : ∀ items, one.value ≠ .array items) :
    one.Accepted loader ↔ ¬ one.Faulty loader := by
  rw [accepted_iff]
  constructor
  · rintro ⟨members, written, keeps⟩ faulty
    cases faulty with
    | noObject other =>
        cases form : one.value with
        | object held => exact other held form
        | array items => exact noArray items form
        | null | bool | number | string =>
            rw [form] at written
            cases written
    | members held misdeclared =>
        rw [held] at written
        cases written
        exact keeps misdeclared
  · intro sound
    cases form : one.value with
    | object members => exact ⟨members, rfl, fun misdeclared => sound (.members form misdeclared)⟩
    | null | bool | number | string | array => exact absurd (.noObject (by simp [form])) sound

end PlacedEntry

end DocShape
