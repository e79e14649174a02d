import DocShape.Proofs.Plan

/-! The values of custom kind in a document, in order of declaration and index.
They are found along declared fields whose values have the declared shape, and
none of them lies inside another. -/

set_option autoImplicit false

namespace DocShape

open Json (Value)

variable {ρ : Type}

/-- A value of custom kind and where it lies: in an array or as a field. -/
structure Custom where
  location : Location
  value : Value
  element : Bool

def Custom.below (segment : Segment) (custom : Custom) : Custom :=
  { custom with location := segment :: custom.location }

def Custom.asked (path : String) (custom : Custom) : String × Value :=
  (KeyPath.render path custom.location, custom.value)

namespace Customs

def items (customs : Value → List Custom) : Nat → List Value → List Custom
  | _, [] => []
  | index, item :: rest =>
      (if item.isNull then [] else customs item).map (Custom.below (.item index)) ++
        items customs (index + 1) rest

def member (customs : Value → List Custom) : Option Value → List Custom
  | none | some .null => []
  | some value => customs value

mutual

def item : ItemKind ρ → Value → List Custom
  | .object ⟨declared⟩, .object members => fields declared members
  | .custom _, value => [⟨[], value, true⟩]
  | _, _ => []

def field : FieldKind ρ → Value → List Custom
  | .item (.custom _), value => [⟨[], value, false⟩]
  | .item kind, value => item kind value
  | .array element, .array values => items (fun value => item element value) 0 values
  | .array _, _ => []

def fields : List (String × Field ρ) → List (String × Value) → List Custom
  | [], _ => []
  | (name, ⟨kind, _⟩) :: rest, members =>
      (member (fun value => field kind value) (Entries.get? name members)).map
          (Custom.below (.member name)) ++
        fields rest members

end

end Customs

/-- The values of custom kind in a document, null and absent ones left out. -/
def Schema.customs (schema : Schema ρ) : Value → List Custom
  | .object members => Customs.fields schema.fields members
  | _ => []

namespace Customs

private theorem member_absent {found : Option Value} (absent : Absent found)
    (customs : Value → List Custom) : member customs found = [] := by
  rcases absent with rfl | rfl <;> rfl

private theorem member_some {value : Value} (held : value ≠ .null) (customs : Value → List Custom) :
    member customs (some value) = customs value := by
  cases value with
  | null => exact absurd rfl held
  | bool | number | string | array | object => rfl

/-! ## The consulting steps of a plan -/

end Customs

def Step.custom? : Step ρ → Option Custom
  | ⟨_, .refuse _⟩ => none
  | ⟨location, .consult _ value stored⟩ => some ⟨location, value, stored⟩

namespace Customs

private theorem customs_below (segment : Segment) (steps : List (Step ρ)) :
    (steps.map (Step.below segment)).filterMap Step.custom? =
      (steps.filterMap Step.custom?).map (Custom.below segment) := by
  rw [List.filterMap_map, List.map_filterMap]
  congr 1
  funext step
  obtain ⟨location, action⟩ := step
  cases action <;> rfl

private theorem customs_items {plan : Value → List (Step ρ)} {customs : Value → List Custom}
    (agree : ∀ value, (plan value).filterMap Step.custom? = customs value) (index : Nat)
    (values : List Value) :
    (Plan.items plan index values).filterMap Step.custom? = items customs index values := by
  induction values generalizing index with
  | nil => rfl
  | cons value rest ih =>
      rw [Plan.items, items, List.filterMap_append, customs_below, ih]
      by_cases isNull : value.isNull = true
      · simp [isNull, Step.refuse, Step.custom?]
      · simp [isNull, agree]

private theorem customs_undeclared (declared : List (String × Field ρ))
    (members : List (String × Value)) :
    (Plan.undeclared declared members).filterMap Step.custom? = [] := by
  rw [List.filterMap_eq_nil_iff]
  intro step listed
  obtain ⟨name, -, rfl⟩ := List.mem_map.mp listed
  rfl

mutual

private theorem item_of_plan (strict : Bool) : (kind : ItemKind ρ) → ∀ value,
    (Plan.item strict kind value).filterMap Step.custom? = item kind value
  | .scalar kind, value => by
      simp only [Plan.item]
      split <;> cases value <;> rfl
  | .object ⟨declared⟩, value => by
      cases value with
      | object members =>
          have agrees := fields_of_plan strict declared members
          cases strict with
          | false => simpa [Plan.item, Plan.object, item] using agrees
          | true => simpa [Plan.item, Plan.object, item, customs_undeclared] using agrees
      | null | bool | number | string | array => rfl
  | .custom resolver, value => by cases value <;> rfl

private theorem field_of_plan (strict : Bool) : (kind : FieldKind ρ) → ∀ value,
    (Plan.field strict kind value).filterMap Step.custom? = field kind value
  | .item (.custom resolver), value => rfl
  | .item (.scalar kind), value => item_of_plan strict (.scalar kind) value
  | .item (.object schema), value => item_of_plan strict (.object schema) value
  | .array element, value => by
      cases value with
      | array values => exact customs_items (item_of_plan strict element) 0 values
      | null | bool | number | string | object => rfl

private theorem fields_of_plan (strict : Bool) : (declared : List (String × Field ρ)) → ∀ members,
    (Plan.fields strict declared members).filterMap Step.custom? = fields declared members
  | [], _ => by
      simp [Plan.fields, fields]
  | (name, ⟨kind, optional⟩) :: rest, members => by
      rw [Plan.fields, fields, List.filterMap_append, customs_below,
        fields_of_plan strict rest members]
      rcases absent_or_present (Entries.get? name members) with absent | ⟨value, found, held⟩
      · rw [Plan.present_absent absent, member_absent absent]
        cases optional <;> rfl
      · rw [found, Plan.present_some held, member_some held, field_of_plan strict kind value]

end

theorem object_of_plan (strict : Bool) (schema : Schema ρ) (members : List (String × Value)) :
    (Plan.object strict schema members).filterMap Step.custom? =
      schema.customs (.object members) := by
  obtain ⟨declared⟩ := schema
  exact item_of_plan strict (.object ⟨declared⟩) (.object members)

/-! ## Where they lie -/

/-- The listed values are values of the document, and none of them is null. -/
def Held (document : Value) (customs : List Custom) : Prop :=
  ∀ custom ∈ customs, document.at? custom.location = some custom.value ∧ custom.value ≠ .null

theorem Held.below {document inner : Value} {segment : Segment} {customs : List Custom}
    (found : document.inside? segment = some inner) (held : Held inner customs) :
    Held document (customs.map (Custom.below segment)) := by
  intro custom listed
  obtain ⟨deeper, inside, rfl⟩ := List.mem_map.mp listed
  obtain ⟨present, notNull⟩ := held deeper inside
  refine ⟨?_, notNull⟩
  simpa [Custom.below, Value.at?, found] using present

theorem Held.append {document : Value} {customs others : List Custom}
    (held : Held document customs) (later : Held document others) :
    Held document (customs ++ others) := by
  intro custom listed
  rcases List.mem_append.mp listed with listed | listed
  · exact held custom listed
  · exact later custom listed

private theorem held_items {customs : Value → List Custom}
    (held : ∀ value, value ≠ .null → Held value (customs value)) (done values : List Value) :
    Held (.array (done ++ values)) (items customs done.length values) := by
  induction values generalizing done with
  | nil => simp [items, Held]
  | cons value rest ih =>
      have found : (Value.array (done ++ value :: rest)).inside? (.item done.length) =
          some value := by
        simp [Value.inside?]
      have later : Held (.array (done ++ value :: rest))
          (items customs (done.length + 1) rest) := by
        simpa using ih (done ++ [value])
      refine Held.append (Held.below found ?_) later
      cases value with
      | null => simp [Value.isNull, Held]
      | bool | number | string | array | object => exact held _ (by simp)

mutual

private theorem held_item : (kind : ItemKind ρ) → ∀ value, value ≠ .null → Held value
    (item kind value)
  | .scalar _, value, _ => by cases value <;> simp [item, Held]
  | .object ⟨declared⟩, value, _ => by
      cases value with
      | object members => exact held_fields declared members
      | null | bool | number | string | array => simp [item, Held]
  | .custom _, value, notNull => by cases value <;> simp_all [item, Held]

private theorem held_field : (kind : FieldKind ρ) → ∀ value, value ≠ .null → Held value
    (field kind value)
  | .item (.custom _), value, notNull => by simpa [field, Held] using notNull
  | .item (.scalar kind), value, notNull => held_item (.scalar kind) value notNull
  | .item (.object schema), value, notNull => held_item (.object schema) value notNull
  | .array element, value, _ => by
      cases value with
      | array values => exact held_items (held_item element) [] values
      | null | bool | number | string | object => simp [field, Held]

private theorem held_fields : (declared : List (String × Field ρ)) → ∀ members,
    Held (.object members) (fields declared members)
  | [], members => by simp [fields, Held]
  | (name, ⟨kind, _⟩) :: rest, members => by
      refine Held.append ?_ (held_fields rest members)
      rcases absent_or_present (Entries.get? name members) with absent | ⟨value, found, notNull⟩
      · simp [member_absent absent, Held]
      · rw [found, member_some notNull]
        exact Held.below found (held_field kind value notNull)

end

theorem held_customs (schema : Schema ρ) (document : Value) :
    Held document (schema.customs document) := by
  cases document with
  | object members => exact held_fields schema.fields members
  | null | bool | number | string | array => simp [Schema.customs, Held]

/-- None of the listed values lies inside another one or is listed twice. -/
def Separate (customs : List Custom) : Prop :=
  customs.Pairwise fun left right => left.location.Apart right.location

theorem Separate.below {customs : List Custom} (separate : Separate customs)
    (segment : Segment) : Separate (customs.map (Custom.below segment)) := by
  rw [Separate, List.pairwise_map]
  exact separate.imp Location.apart_cons_iff.mpr

theorem Separate.below_append {customs others : List Custom} {segment : Segment}
    (separate : Separate customs) (later : Separate others)
    (elsewhere : ∀ other ∈ others, ∃ first rest, segment ≠ first ∧
      other.location = first :: rest) :
    Separate (customs.map (Custom.below segment) ++ others) := by
  rw [Separate, List.pairwise_append]
  refine ⟨separate.below segment, later, ?_⟩
  intro custom listed other listedLater
  obtain ⟨deeper, -, rfl⟩ := List.mem_map.mp listed
  obtain ⟨first, rest, different, location⟩ := elsewhere other listedLater
  rw [location]
  exact Location.apart_of_ne different deeper.location rest

private theorem location_of_mem_items {customs : Value → List Custom} {index : Nat}
    {values : List Value} {custom : Custom} (listed : custom ∈ items customs index values) :
    ∃ later rest, index ≤ later ∧ custom.location = .item later :: rest := by
  induction values generalizing index with
  | nil => simp [items] at listed
  | cons value rest ih =>
      rcases List.mem_append.mp listed with here | later
      · obtain ⟨deeper, -, rfl⟩ := List.mem_map.mp here
        exact ⟨index, deeper.location, Nat.le_refl index, rfl⟩
      · obtain ⟨place, location, bound, same⟩ := ih later
        exact ⟨place, location, Nat.le_of_succ_le bound, same⟩

private theorem location_of_mem_fields {declared : List (String × Field ρ)}
    {members : List (String × Value)} {custom : Custom}
    (listed : custom ∈ fields declared members) :
    ∃ name rest, name ∈ Entries.names declared ∧ custom.location = .member name :: rest := by
  induction declared with
  | nil => simp [fields] at listed
  | cons head rest ih =>
      obtain ⟨name, ⟨kind, optional⟩⟩ := head
      rcases List.mem_append.mp listed with here | later
      · obtain ⟨deeper, -, rfl⟩ := List.mem_map.mp here
        exact ⟨name, deeper.location, List.mem_cons_self, rfl⟩
      · obtain ⟨key, location, declares, same⟩ := ih later
        exact ⟨key, location, List.mem_cons_of_mem _ declares, same⟩

private theorem separate_items {customs : Value → List Custom}
    (separate : ∀ value, Separate (customs value)) (index : Nat) (values : List Value) :
    Separate (items customs index values) := by
  induction values generalizing index with
  | nil => exact List.Pairwise.nil
  | cons value rest ih =>
      apply Separate.below_append ?_ (ih (index + 1))
      · intro other listed
        obtain ⟨later, location, bound, same⟩ := location_of_mem_items listed
        refine ⟨.item later, location, ?_, same⟩
        intro equal
        cases equal
        omega
      · split
        · exact List.Pairwise.nil
        · exact separate value

mutual

private theorem separate_item : (kind : ItemKind ρ) → kind.UniqueNames → ∀ value,
    Separate (item kind value)
  | .scalar _, _, value => by cases value <;> exact List.Pairwise.nil
  | .object ⟨declared⟩, unique, value => by
      cases value with
      | object members => exact separate_fields declared unique.1 unique.2 members
      | null | bool | number | string | array => exact List.Pairwise.nil
  | .custom _, _, value => by cases value <;> exact List.pairwise_singleton _ _

private theorem separate_field : (kind : FieldKind ρ) → kind.UniqueNames → ∀ value,
    Separate (field kind value)
  | .item (.custom _), _, _ => List.pairwise_singleton _ _
  | .item (.scalar kind), unique, value => separate_item (.scalar kind) unique value
  | .item (.object schema), unique, value => separate_item (.object schema) unique value
  | .array element, unique, value => by
      cases value with
      | array values => exact separate_items (separate_item element unique) 0 values
      | null | bool | number | string | object => exact List.Pairwise.nil

private theorem separate_fields : (declared : List (String × Field ρ)) →
    (Entries.names declared).Nodup → UniqueNamesIn declared → ∀ members,
    Separate (fields declared members)
  | [], _, _, _ => List.Pairwise.nil
  | (name, ⟨kind, _⟩) :: rest, distinct, unique, members => by
      rw [Entries.names_cons, List.nodup_cons] at distinct
      apply Separate.below_append ?_ (separate_fields rest distinct.2 unique.2 members)
      · intro other listed
        obtain ⟨key, location, declares, same⟩ := location_of_mem_fields listed
        refine ⟨.member key, location, ?_, same⟩
        intro equal
        cases equal
        exact distinct.1 declares
      · rcases absent_or_present (Entries.get? name members) with absent | ⟨value, found, notNull⟩
        · rw [member_absent absent]
          exact List.Pairwise.nil
        · rw [found, member_some notNull]
          exact separate_field kind unique.1 value

end

theorem separate_customs {schema : Schema ρ} (unique : schema.UniqueNames) (document : Value) :
    Separate (schema.customs document) := by
  obtain ⟨declared⟩ := schema
  cases document with
  | object members => exact separate_fields declared unique.1 unique.2 members
  | null | bool | number | string | array => exact List.Pairwise.nil

/-! ## Array elements among them -/

theorem mem_items {customs : Value → List Custom} {index : Nat} {values : List Value}
    {custom : Custom} (listed : custom ∈ items customs index values) :
    ∃ value deeper, deeper ∈ customs value ∧ custom.element = deeper.element := by
  induction values generalizing index with
  | nil => simp [items] at listed
  | cons value rest ih =>
      rcases List.mem_append.mp listed with here | later
      · obtain ⟨deeper, inside, rfl⟩ := List.mem_map.mp here
        split at inside
        · simp at inside
        · exact ⟨value, deeper, inside, rfl⟩
      · exact ih later

mutual

private theorem element_item : (kind : ItemKind ρ) → (∀ resolver, kind ≠ .custom resolver) →
    (∀ resolver, ¬ kind.Declares (.array (.custom resolver))) → ∀ value,
    ∀ custom ∈ item kind value, custom.element = false
  | .scalar _, _, _, value, custom, listed => by cases value <;> simp [item] at listed
  | .object ⟨declared⟩, _, fieldsOnly, value, custom, listed => by
      cases value with
      | object members => exact element_fields declared fieldsOnly members custom listed
      | null | bool | number | string | array => simp [item] at listed
  | .custom resolver, different, _, _, _, _ => absurd rfl (different resolver)

private theorem element_field : (kind : FieldKind ρ) →
    (∀ resolver, ¬ kind.Declares (.array (.custom resolver))) → ∀ value,
    ∀ custom ∈ field kind value, custom.element = false
  | .item (.custom _), _, value, custom, listed => by
      simp only [field, List.mem_singleton] at listed
      rw [listed]
  | .item (.scalar kind), _, value, custom, listed => by
      cases value <;> simp [field, item] at listed
  | .item (.object schema), fieldsOnly, value, custom, listed => by
      refine element_item (.object schema) (by simp) ?_ value custom listed
      intro resolver declares
      exact fieldsOnly resolver (.inr declares)
  | .array element, fieldsOnly, value, custom, listed => by
      cases value with
      | array values =>
          obtain ⟨value, deeper, inside, same⟩ := mem_items listed
          rw [same]
          refine element_item element ?_ ?_ value deeper inside
          · intro resolver isCustom
            exact fieldsOnly resolver (.inl (congrArg FieldKind.array isCustom))
          · intro resolver declares
            exact fieldsOnly resolver (.inr declares)
      | null | bool | number | string | object => simp [field] at listed

private theorem element_fields : (declared : List (String × Field ρ)) →
    (∀ resolver, ¬ DeclaredIn declared (.array (.custom resolver))) → ∀ members,
    ∀ custom ∈ fields declared members, custom.element = false
  | [], _, members, custom, listed => by simp [fields] at listed
  | (name, ⟨kind, _⟩) :: rest, fieldsOnly, members, custom, listed => by
      rcases List.mem_append.mp listed with here | later
      · obtain ⟨deeper, inside, rfl⟩ := List.mem_map.mp here
        rcases absent_or_present (Entries.get? name members) with absent | ⟨value, found, notNull⟩
        · simp [member_absent absent] at inside
        · rw [found, member_some notNull] at inside
          refine element_field kind ?_ value deeper inside
          intro resolver declares
          exact fieldsOnly resolver (.inl declares)
      · refine element_fields rest ?_ members custom later
        intro resolver declares
        exact fieldsOnly resolver (.inr declares)

end

/-- Without arrays of custom items, only fields are of custom kind. -/
theorem element_customs {schema : Schema ρ}
    (fieldsOnly : ∀ resolver, ¬ schema.Declares (.array (.custom resolver)))
    (document : Value) : ∀ custom ∈ schema.customs document, custom.element = false := by
  obtain ⟨declared⟩ := schema
  cases document with
  | object members => exact element_fields declared fieldsOnly members
  | null | bool | number | string | array => simp [Schema.customs]

end Customs

end DocShape
