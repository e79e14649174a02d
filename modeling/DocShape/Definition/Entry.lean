import DocShape.Error

/-!
# Entries of schema definitions

An entry declares one field or array element. It is an object of the five
members below, or the array of their values in order. A member that holds null
is absent, the type apart.
-/

set_option autoImplicit false

namespace DocShape

open Json (Value Mismatch)

/-- What an entry says, before its parts are looked into. -/
structure Entry where
  type : String
  optional : Option Bool
  fields : Option (List (String × Value))
  element : Option Value
  resolver : Option String

namespace Entry

def memberNames : List String :=
  ["type", "optional", "fields", "element", "resolver"]

/-! ## Decoding -/

/-- Whether a value may stand under a member's name. -/
def checkMember (name : String) (value : Value) : Except Mismatch Unit :=
  match name, value with
  | "type", .string _ => .ok ()
  | "type", other => .error (.kind other.found "a string")
  | "optional", .null => .ok ()
  | "optional", .bool _ => .ok ()
  | "optional", other => .error (.kind other.found "a boolean")
  | "fields", .null => .ok ()
  | "fields", .object _ => .ok ()
  | "fields", other => .error (.kind other.found "a map")
  | "element", _ => .ok ()
  | "resolver", .null => .ok ()
  | "resolver", .string _ => .ok ()
  | "resolver", other => .error (.kind other.found "a string")
  | other, _ => .error (.unknownMember other memberNames)

/-- The first fault in the order of the members. -/
def checkMembers : List (String × Value) → Except Mismatch Unit
  | [] => .ok ()
  | (name, value) :: rest => do
      checkMember name value
      checkMembers rest

def truth? : Value → Option Bool
  | .bool truth => some truth
  | _ => none

def text? : Value → Option String
  | .string text => some text
  | _ => none

def members? : Value → Option (List (String × Value))
  | .object members => some members
  | _ => none

def present? : Value → Option Value
  | .null => none
  | value => some value

def ofMembers (members : List (String × Value)) : Except Mismatch Entry := do
  checkMembers members
  match (Entries.get? "type" members).bind text? with
  | none => .error (.missingMember "type")
  | some type =>
      return {
        type
        optional := (Entries.get? "optional" members).bind truth?
        fields := (Entries.get? "fields" members).bind members?
        element := (Entries.get? "element" members).bind present?
        resolver := (Entries.get? "resolver" members).bind text? }

/-- Items beyond the last member are refused only once the others are sound. -/
def ofItems (items : List Value) : Except Mismatch Entry := do
  let members := memberNames.zip items
  checkMembers members
  if items.length < memberNames.length then
    .error (.tooFewItems items.length "struct FieldDefinition with 5 elements")
  else if memberNames.length < items.length then
    .error (.tooManyItems items.length)
  else ofMembers members

def ofValue : Value → Except Mismatch Entry
  | .object members => ofMembers members
  | .array items => ofItems items
  | other => .error (.kind other.found "struct FieldDefinition")

/-! ## Members that belong to one type -/

/-- Refuses a member that belongs to fields of another type. -/
def misplaced? (entry : Entry) : Option SchemaFault :=
  if entry.fields.isSome && entry.type ≠ "object" then
    some (.misplacedMember "fields" "object" entry.type)
  else if entry.element.isSome && entry.type ≠ "array" then
    some (.misplacedMember "element" "array" entry.type)
  else if entry.resolver.isSome && entry.type ≠ "custom" then
    some (.misplacedMember "resolver" "custom" entry.type)
  else none

def read (path : String) (value : Value) : Except Error Entry :=
  match ofValue value with
  | .error mismatch => .error (.malformed path (.entry mismatch))
  | .ok entry =>
      match entry.misplaced? with
      | some fault => .error (.malformed path fault)
      | none => .ok entry

/-! ## The parts of an entry are smaller than its value -/

theorem sizeOf_lt_of_get? {name : String} {value : Value} {members : List (String × Value)}
    (found : Entries.get? name members = some value) : sizeOf value < sizeOf members := by
  induction members with
  | nil => simp at found
  | cons head rest ih =>
      obtain ⟨key, item⟩ := head
      rw [Entries.get?] at found
      split at found
      · cases found
        simp only [List.cons.sizeOf_spec, Prod.mk.sizeOf_spec]
        omega
      · have := ih found
        simp only [List.cons.sizeOf_spec]
        omega

theorem sizeOf_lt_of_get?_zip {name : String} {value : Value} {names : List String}
    {items : List Value} (found : Entries.get? name (names.zip items) = some value) :
    sizeOf value < sizeOf items := by
  induction names generalizing items with
  | nil => simp at found
  | cons key names ih =>
      cases items with
      | nil => simp at found
      | cons item items =>
          rw [List.zip_cons_cons, Entries.get?] at found
          simp only [List.cons.sizeOf_spec]
          split at found
          · cases found
            omega
          · have := ih found
            omega

theorem sizeOf_lt_of_members? {value : Value} {fields : List (String × Value)}
    (holds : members? value = some fields) : sizeOf fields < sizeOf value := by
  cases value <;> simp_all [members?]

theorem sizeOf_le_of_present? {value element : Value}
    (holds : present? value = some element) : sizeOf element ≤ sizeOf value := by
  cases value <;> simp_all [present?]

theorem parts_of_ofMembers {members : List (String × Value)} {entry : Entry}
    (decoded : ofMembers members = .ok entry) :
    entry.fields = (Entries.get? "fields" members).bind members? ∧
      entry.element = (Entries.get? "element" members).bind present? := by
  unfold ofMembers at decoded
  cases checked : checkMembers members with
  | error => simp [checked, bind, Except.bind] at decoded
  | ok =>
      simp only [checked, bind, Except.bind] at decoded
      split at decoded
      · cases decoded
      · cases decoded
        exact ⟨rfl, rfl⟩

theorem ofMembers_of_ofItems {items : List Value} {entry : Entry}
    (decoded : ofItems items = .ok entry) :
    ofMembers (memberNames.zip items) = .ok entry := by
  unfold ofItems at decoded
  cases checked : checkMembers (memberNames.zip items) with
  | error => simp [checked, bind, Except.bind] at decoded
  | ok =>
      simp only [checked, bind, Except.bind] at decoded
      split at decoded
      · cases decoded
      · split at decoded
        · cases decoded
        · exact decoded

/-- A value that decodes holds the members of its entry at a smaller size. -/
theorem exists_members_of_ofValue {value : Value} {entry : Entry}
    (decoded : ofValue value = .ok entry) :
    ∃ members : List (String × Value), ofMembers members = .ok entry ∧
      ∀ name part, Entries.get? name members = some part → sizeOf part < sizeOf value := by
  cases value with
  | object members =>
      refine ⟨members, decoded, fun name part found => ?_⟩
      have := sizeOf_lt_of_get? found
      simp only [Value.object.sizeOf_spec]
      omega
  | array items =>
      refine ⟨_, ofMembers_of_ofItems decoded, fun name part found => ?_⟩
      have := sizeOf_lt_of_get?_zip found
      simp only [Value.array.sizeOf_spec]
      omega
  | null => cases decoded
  | bool => cases decoded
  | number => cases decoded
  | string => cases decoded

theorem sizeOf_fields_lt {value : Value} {entry : Entry} {fields : List (String × Value)}
    (decoded : ofValue value = .ok entry) (holds : entry.fields = some fields) :
    sizeOf fields < sizeOf value := by
  obtain ⟨members, decodedMembers, smaller⟩ := exists_members_of_ofValue decoded
  rw [(parts_of_ofMembers decodedMembers).1] at holds
  obtain ⟨part, found, holds⟩ := Option.bind_eq_some_iff.mp holds
  exact Nat.lt_trans (sizeOf_lt_of_members? holds) (smaller _ _ found)

theorem sizeOf_element_lt {value element : Value} {entry : Entry}
    (decoded : ofValue value = .ok entry) (holds : entry.element = some element) :
    sizeOf element < sizeOf value := by
  obtain ⟨members, decodedMembers, smaller⟩ := exists_members_of_ofValue decoded
  rw [(parts_of_ofMembers decodedMembers).2] at holds
  obtain ⟨part, found, holds⟩ := Option.bind_eq_some_iff.mp holds
  exact Nat.lt_of_le_of_lt (sizeOf_le_of_present? holds) (smaller _ _ found)

noncomputable def fieldsSize (entry : Entry) : Nat :=
  match entry.fields with
  | some fields => sizeOf fields
  | none => 0

theorem fieldsSize_lt {value : Value} {entry : Entry} (decoded : ofValue value = .ok entry) :
    entry.fieldsSize < sizeOf value := by
  unfold fieldsSize
  split
  · rename_i fields holds
    exact sizeOf_fields_lt decoded holds
  · cases value <;> simp +arith

theorem ofValue_of_read {path : String} {value : Value} {entry : Entry}
    (decoded : read path value = .ok entry) : ofValue value = .ok entry := by
  unfold read at decoded
  split at decoded
  · cases decoded
  · rename_i found result
    split at decoded
    · cases decoded
    · cases decoded
      exact result

end Entry

end DocShape
