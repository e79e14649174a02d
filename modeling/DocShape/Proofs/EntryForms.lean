import DocShape.Definition.Loader
import DocShape.Proofs.Plan

/-! The rules for one entry of a definition, apart from those that it leads to:
how its members are written, which of them go with its type, and what an array
asks of its element. An entry decodes and passes the checks of a loader exactly
if it breaks none of the rules. -/

set_option autoImplicit false

namespace DocShape

open Json (Value Mismatch)

variable {ρ : Type} {members : List (String × Value)}

namespace Entry

/-- The members that a value gives an entry: those of an object, or the items of
an array that has one for each. -/
def written? : Value → Option (List (String × Value))
  | .object members => some members
  | .array items =>
      if items.length = memberNames.length then some (memberNames.zip items) else none
  | _ => none

theorem ofItems_of_length {items : List Value} (full : items.length = memberNames.length) :
    ofItems items = ofMembers (memberNames.zip items) := by
  unfold ofItems
  cases checked : checkMembers (memberNames.zip items) with
  | error mismatch => simp [ofMembers, checked, bind, Except.bind]
  | ok => simp [checked, bind, Except.bind, full]

private theorem length_of_ofItems {items : List Value} {entry : Entry}
    (decoded : ofItems items = .ok entry) : items.length = memberNames.length := by
  unfold ofItems at decoded
  cases checked : checkMembers (memberNames.zip items) with
  | error => simp [checked, bind, Except.bind] at decoded
  | ok =>
      simp only [checked, bind, Except.bind] at decoded
      split at decoded
      · cases decoded
      · split at decoded
        · cases decoded
        · omega

theorem ofValue_of_written {value : Value} (written : written? value = some members) :
    ofValue value = ofMembers members := by
  cases value with
  | object held =>
      cases written
      rfl
  | array items =>
      simp only [written?] at written
      split at written
      · rename_i full
        cases written
        exact ofItems_of_length full
      · cases written
  | null | bool | number | string => cases written

theorem written_of_ofValue {value : Value} {entry : Entry} (decoded : ofValue value = .ok entry) :
    ∃ members, written? value = some members ∧ ofMembers members = .ok entry := by
  cases value with
  | object members => exact ⟨members, rfl, decoded⟩
  | array items =>
      exact ⟨_, if_pos (length_of_ofItems decoded), ofMembers_of_ofItems decoded⟩
  | null | bool | number | string => cases decoded

/-! ## Members by their names -/

/-- The values that may stand under a name. -/
inductive MemberForm : String → Value → Prop where
  | type {text : String} : MemberForm "type" (.string text)
  | optional {truth : Bool} : MemberForm "optional" (.bool truth)
  | fields {members : List (String × Value)} : MemberForm "fields" (.object members)
  | element {value : Value} : MemberForm "element" value
  | resolver {text : String} : MemberForm "resolver" (.string text)
  | absent {name : String} (known : name ∈ memberNames) (noType : name ≠ "type") :
      MemberForm name .null

private theorem checkMember_eq_ok_iff {name : String} {value : Value} :
    checkMember name value = .ok () ↔ MemberForm name value := by
  constructor
  · intro checked
    unfold checkMember at checked
    split at checked
    case h_1 => exact .type
    case h_3 => exact .absent (by decide) (by decide)
    case h_4 => exact .optional
    case h_6 => exact .absent (by decide) (by decide)
    case h_7 => exact .fields
    case h_9 => exact .element
    case h_10 => exact .absent (by decide) (by decide)
    case h_11 => exact .resolver
    all_goals cases checked
  · intro form
    cases form with
    | absent known noType =>
        simp only [memberNames, List.mem_cons, List.not_mem_nil, or_false] at known
        rcases known with rfl | rfl | rfl | rfl | rfl
        · exact absurd rfl noType
        all_goals rfl
    | type | optional | fields | element | resolver => rfl

private theorem checkMembers_eq_ok_iff :
    checkMembers members = .ok () ↔ ∀ pair ∈ members, MemberForm pair.1 pair.2 := by
  induction members with
  | nil => simp [checkMembers]
  | cons head rest ih =>
      obtain ⟨name, value⟩ := head
      rw [checkMembers, List.forall_mem_cons, ← checkMember_eq_ok_iff, ← ih]
      cases checkMember name value with
      | error => simp [bind, Except.bind]
      | ok => simp [bind, Except.bind]

private theorem text?_eq_some_iff {value : Value} {text : String} :
    text? value = some text ↔ value = .string text := by
  cases value <;> simp [text?]

/-- What members of the right forms say, once their type is known. -/
def saying (type : String) (members : List (String × Value)) : Entry where
  type := type
  optional := (Entries.get? "optional" members).bind truth?
  fields := (Entries.get? "fields" members).bind members?
  element := (Entries.get? "element" members).bind present?
  resolver := (Entries.get? "resolver" members).bind text?

theorem ofMembers_eq_ok_iff {entry : Entry} :
    ofMembers members = .ok entry ↔
      (∀ pair ∈ members, MemberForm pair.1 pair.2) ∧ ∃ type,
        Entries.get? "type" members = some (.string type) ∧ entry = saying type members := by
  rw [← checkMembers_eq_ok_iff]
  have typed : ∀ type, (Entries.get? "type" members).bind text? = some type ↔
      Entries.get? "type" members = some (.string type) := by
    simp [Option.bind_eq_some_iff, text?_eq_some_iff]
  unfold ofMembers
  cases checkMembers members with
  | error => simp [bind, Except.bind]
  | ok =>
      simp only [bind, Except.bind, true_and]
      simp only [← typed]
      cases (Entries.get? "type" members).bind text? with
      | none => simp
      | some type =>
          simp only [pure, Except.pure, Except.ok.injEq, Option.some.injEq, exists_eq_left']
          exact eq_comm

/-! A part is missing from an entry of the right forms exactly if its member is
absent, since each part can be read off every value of its form but null. -/

theorem bind_eq_none_iff {α : Type} {name : String} {part : Value → Option α}
    (forms : ∀ pair ∈ members, MemberForm pair.1 pair.2)
    (reads : ∀ value, checkMember name value = .ok () → (part value = none ↔ value = .null)) :
    (Entries.get? name members).bind part = none ↔ Absent (Entries.get? name members) := by
  cases found : Entries.get? name members with
  | none => simp [Absent]
  | some value =>
      have form := forms _ (Entries.mem_of_get? found)
      simpa [Absent] using reads value (checkMember_eq_ok_iff.mpr form)

section Parts

variable (forms : ∀ pair ∈ members, MemberForm pair.1 pair.2) (type : String)

include forms

private theorem optional_eq_none_iff :
    (saying type members).optional = none ↔ Absent (Entries.get? "optional" members) :=
  bind_eq_none_iff forms fun value => by cases value <;> simp [checkMember, truth?]

private theorem fields_eq_none_iff :
    (saying type members).fields = none ↔ Absent (Entries.get? "fields" members) :=
  bind_eq_none_iff forms fun value => by cases value <;> simp [checkMember, members?]

private theorem element_eq_none_iff :
    (saying type members).element = none ↔ Absent (Entries.get? "element" members) :=
  bind_eq_none_iff forms fun value => by cases value <;> simp [checkMember, present?]

private theorem resolver_eq_none_iff :
    (saying type members).resolver = none ↔ Absent (Entries.get? "resolver" members) :=
  bind_eq_none_iff forms fun value => by cases value <;> simp [checkMember, text?]

end Parts

/-! ## The rules -/

def typeNames : List String :=
  ["string", "number", "bool", "boolean", "object", "array", "custom"]

/-- The members that go with one type only. -/
def owners : List (String × String) :=
  [("fields", "object"), ("element", "array"), ("resolver", "custom")]

private theorem misplaced?_eq_none_iff {entry : Entry} :
    entry.misplaced? = none ↔ (entry.fields ≠ none → entry.type = "object") ∧
      (entry.element ≠ none → entry.type = "array") ∧
      (entry.resolver ≠ none → entry.type = "custom") := by
  unfold misplaced?
  simp only [Bool.and_eq_true, decide_eq_true_eq, ← Option.isSome_iff_ne_none]
  split
  · simp_all
  · split
    · simp_all
    · split <;> simp_all

/-- What a loader asks of an entry, apart from the entries that it leads to. -/
structure Sound (loader : Loader ρ) (inArray : Bool) (entry : Entry) : Prop where
  placed : entry.misplaced? = none
  known : entry.type ∈ typeNames
  element : entry.type = "array" → entry.element ≠ none
  fields : entry.type = "object" → ∃ fields, entry.fields = some fields ∧ fields ≠ []
  resolver : entry.type = "custom" → ∃ name resolver, entry.resolver = some name ∧
    Entries.get? name loader.resolvers = some resolver
  asElement : inArray = true → entry.optional = none ∧ entry.type ≠ "array"

/-- The ways in which the members of an entry break the rules. -/
inductive Misdeclared (loader : Loader ρ) (inArray : Bool) (members : List (String × Value)) :
    Prop where
  | form {name : String} {value : Value} (held : (name, value) ∈ members)
      (wrong : ¬ MemberForm name value)
  | noType (missing : Entries.get? "type" members = none)
  | misplaced {type name owner : String} (typed : Entries.get? "type" members = some (.string type))
      (owned : (name, owner) ∈ owners) (present : ¬ Absent (Entries.get? name members))
      (other : type ≠ owner)
  | unknownType {type : String} (typed : Entries.get? "type" members = some (.string type))
      (unknown : type ∉ typeNames)
  | noElement (typed : Entries.get? "type" members = some (.string "array"))
      (absent : Absent (Entries.get? "element" members))
  | noFields (typed : Entries.get? "type" members = some (.string "object"))
      (absent : Absent (Entries.get? "fields" members))
  | emptyFields (typed : Entries.get? "type" members = some (.string "object"))
      (empty : Entries.get? "fields" members = some (.object []))
  | noResolver (typed : Entries.get? "type" members = some (.string "custom"))
      (absent : Absent (Entries.get? "resolver" members))
  | unknownResolver {name : String}
      (typed : Entries.get? "type" members = some (.string "custom"))
      (named : Entries.get? "resolver" members = some (.string name))
      (unknown : Entries.get? name loader.resolvers = none)
  | optionalElement (asElement : inArray = true)
      (present : ¬ Absent (Entries.get? "optional" members))
  | nestedArray (asElement : inArray = true)
      (typed : Entries.get? "type" members = some (.string "array"))

variable {loader : Loader ρ} {inArray : Bool}

private theorem sound_of_not_misdeclared {type : String}
    (keeps : ¬ Misdeclared loader inArray members)
    (typed : Entries.get? "type" members = some (.string type))
    (forms : ∀ pair ∈ members, MemberForm pair.1 pair.2) :
    (saying type members).Sound loader inArray where
  placed := by
    refine misplaced?_eq_none_iff.mpr ⟨fun present => ?_, fun present => ?_, fun present => ?_⟩
    · rw [ne_eq, fields_eq_none_iff forms] at present
      exact by_contra fun other => keeps (.misplaced typed (by decide) present other)
    · rw [ne_eq, element_eq_none_iff forms] at present
      exact by_contra fun other => keeps (.misplaced typed (by decide) present other)
    · rw [ne_eq, resolver_eq_none_iff forms] at present
      exact by_contra fun other => keeps (.misplaced typed (by decide) present other)
  known := by_contra fun unknown => keeps (.unknownType typed unknown)
  element := by
    rintro rfl missing
    exact keeps (.noElement typed ((element_eq_none_iff forms _).mp missing))
  fields := by
    rintro rfl
    cases held : (saying "object" members).fields with
    | none => exact absurd (.noFields typed ((fields_eq_none_iff forms _).mp held)) keeps
    | some fields =>
        refine ⟨fields, rfl, ?_⟩
        rintro rfl
        obtain ⟨value, found, holds⟩ := Option.bind_eq_some_iff.mp held
        cases value with
        | object =>
            cases holds
            exact keeps (.emptyFields typed found)
        | null | bool | number | string | array => cases holds
  resolver := by
    rintro rfl
    cases held : (saying "custom" members).resolver with
    | none => exact absurd (.noResolver typed ((resolver_eq_none_iff forms _).mp held)) keeps
    | some name =>
        obtain ⟨value, found, holds⟩ := Option.bind_eq_some_iff.mp held
        rw [text?_eq_some_iff] at holds
        subst holds
        cases registered : Entries.get? name loader.resolvers with
        | none => exact absurd (.unknownResolver typed found registered) keeps
        | some resolver => exact ⟨name, resolver, rfl, registered⟩
  asElement := by
    intro asElement
    constructor
    · rw [optional_eq_none_iff forms]
      exact by_contra fun present => keeps (.optionalElement asElement present)
    · rintro rfl
      exact keeps (.nestedArray asElement typed)

private theorem not_misdeclared_of_sound {type : String}
    (sound : (saying type members).Sound loader inArray)
    (typed : Entries.get? "type" members = some (.string type))
    (forms : ∀ pair ∈ members, MemberForm pair.1 pair.2) :
    ¬ Misdeclared loader inArray members := by
  have only : ∀ {other}, Entries.get? "type" members = some (.string other) → type = other := by
    intro other named
    rw [typed] at named
    cases named
    rfl
  intro misdeclared
  cases misdeclared with
  | form held wrong => exact wrong (forms _ held)
  | noType missing =>
      rw [typed] at missing
      cases missing
  | misplaced named owned present other =>
      obtain ⟨ofFields, ofElement, ofResolver⟩ := misplaced?_eq_none_iff.mp sound.placed
      have same := only named
      subst same
      simp only [owners, List.mem_cons, List.not_mem_nil, or_false, Prod.mk.injEq] at owned
      rcases owned with ⟨rfl, rfl⟩ | ⟨rfl, rfl⟩ | ⟨rfl, rfl⟩
      · exact other (ofFields (mt (fields_eq_none_iff forms _).mp present))
      · exact other (ofElement (mt (element_eq_none_iff forms _).mp present))
      · exact other (ofResolver (mt (resolver_eq_none_iff forms _).mp present))
  | unknownType named unknown =>
      have same := only named
      exact unknown (same ▸ sound.known)
  | noElement named absent =>
      exact sound.element (only named) ((element_eq_none_iff forms _).mpr absent)
  | noFields named absent =>
      obtain ⟨fields, held, -⟩ := sound.fields (only named)
      rw [(fields_eq_none_iff forms _).mpr absent] at held
      cases held
  | emptyFields named empty =>
      obtain ⟨fields, held, inhabited⟩ := sound.fields (only named)
      rw [saying, empty] at held
      cases held
      exact inhabited rfl
  | noResolver named absent =>
      obtain ⟨name, resolver, held, -⟩ := sound.resolver (only named)
      rw [(resolver_eq_none_iff forms _).mpr absent] at held
      cases held
  | unknownResolver named held unknown =>
      obtain ⟨name, resolver, told, registered⟩ := sound.resolver (only named)
      rw [saying, held] at told
      cases told
      rw [unknown] at registered
      cases registered
  | optionalElement asElement present =>
      exact present ((optional_eq_none_iff forms _).mp (sound.asElement asElement).1)
  | nestedArray asElement named =>
      exact (sound.asElement asElement).2 (only named)

/-- Members break no rule exactly if they decode to an entry that a loader takes. -/
theorem not_misdeclared_iff :
    ¬ Misdeclared loader inArray members ↔
      ∃ entry, ofMembers members = .ok entry ∧ entry.Sound loader inArray := by
  constructor
  · intro keeps
    have forms : ∀ pair ∈ members, MemberForm pair.1 pair.2 := fun pair held =>
      by_contra fun wrong => keeps (.form held wrong)
    cases found : Entries.get? "type" members with
    | none => exact absurd (.noType found) keeps
    | some value =>
        have checked := checkMember_eq_ok_iff.mpr (forms _ (Entries.mem_of_get? found))
        cases value with
        | string type =>
            exact ⟨saying type members, ofMembers_eq_ok_iff.mpr ⟨forms, type, found, rfl⟩,
              sound_of_not_misdeclared keeps found forms⟩
        | null | bool | number | array | object => cases checked
  · rintro ⟨entry, decoded, sound⟩
    obtain ⟨forms, type, typed, rfl⟩ := ofMembers_eq_ok_iff.mp decoded
    exact not_misdeclared_of_sound sound typed forms

end Entry

end DocShape
