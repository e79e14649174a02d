import DocShape.Validate
import DocShape.Proofs.Location
import DocShape.Proofs.Schema

/-! What a walk would do if it never stopped, read off the document before any
resolver has run. A walk performs its plan until a step fails: no answer of a
resolver changes which steps follow, since it is stored where no later step
looks. -/

set_option autoImplicit false

namespace DocShape

open Json (Value)

variable {σ ρ τ : Type}

theorem Json.Value.isNull_iff {value : Value} : value.isNull = true ↔ value = .null := by
  cases value <;> simp [isNull]

/-- A null member is absent. -/
def Absent (member : Option Value) : Prop :=
  member = none ∨ member = some .null

theorem absent_or_present (member : Option Value) :
    Absent member ∨ ∃ value, member = some value ∧ value ≠ .null := by
  cases member with
  | none => exact .inl (.inl rfl)
  | some value =>
      by_cases isNull : value = .null
      · exact .inl (.inr (congrArg some isNull))
      · exact .inr ⟨value, rfl, isNull⟩

inductive Refusal where
  | wrongKind (expected : String) (actual : Value)
  | missing
  | unexpected (name : String)

def Refusal.violation (path : String) : Refusal → Violation
  | .wrongKind expected actual => .wrongKind path expected actual
  | .missing => .missing path
  | .unexpected name => .unexpected path name

inductive Action (ρ : Type) where
  | refuse (refusal : Refusal)
  /-- Asks a resolver about the value; the answer takes its place or is dropped. -/
  | consult (resolver : ρ) (value : Value) (stored : Bool)

structure Step (ρ : Type) where
  location : Location
  action : Action ρ

namespace Step

def refuse (refusal : Refusal) : Step ρ :=
  ⟨[], .refuse refusal⟩

def consult (resolver : ρ) (value : Value) (stored : Bool) : Step ρ :=
  ⟨[], .consult resolver value stored⟩

def below (segment : Segment) (step : Step ρ) : Step ρ :=
  { step with location := segment :: step.location }

def map (change : ρ → τ) : Step ρ → Step τ
  | ⟨location, .refuse refusal⟩ => ⟨location, .refuse refusal⟩
  | ⟨location, .consult resolver value stored⟩ =>
      ⟨location, .consult (change resolver) value stored⟩

end Step

namespace Plan

def undeclared (fields : List (String × Field ρ)) (members : List (String × Value)) :
    List (Step ρ) :=
  ((Entries.names members).filter fun name => !Entries.contains name fields).map fun name =>
    ⟨[.member name], .refuse (.unexpected name)⟩

def items (plan : Value → List (Step ρ)) : Nat → List Value → List (Step ρ)
  | _, [] => []
  | index, item :: rest =>
      (if item.isNull then [.refuse .missing] else plan item).map (Step.below (.item index)) ++
        items plan (index + 1) rest

def present (plan : Value → List (Step ρ)) (optional : Bool) : Option Value → List (Step ρ)
  | none | some .null => if optional then [] else [.refuse .missing]
  | some value => plan value

mutual

def item (strict : Bool) : ItemKind ρ → Value → List (Step ρ)
  | .scalar kind, value =>
      if kind.admits value then [] else [.refuse (.wrongKind kind.name value)]
  | .object schema, .object members => object strict schema members
  | .object _, value => [.refuse (.wrongKind "object" value)]
  | .custom resolver, value => [.consult resolver value true]

def field (strict : Bool) : FieldKind ρ → Value → List (Step ρ)
  | .item (.custom resolver), value => [.consult resolver value false]
  | .item kind, value => item strict kind value
  | .array element, .array values => items (fun value => item strict element value) 0 values
  | .array _, value => [.refuse (.wrongKind "array" value)]

def object (strict : Bool) : Schema ρ → List (String × Value) → List (Step ρ)
  | ⟨declared⟩, members =>
      (if strict then undeclared declared members else []) ++ fields strict declared members

def fields (strict : Bool) : List (String × Field ρ) → List (String × Value) → List (Step ρ)
  | [], _ => []
  | (name, ⟨kind, optional⟩) :: rest, members =>
      (present (fun value => field strict kind value) optional
          (Entries.get? name members)).map (Step.below (.member name)) ++
        fields strict rest members

end

/-- Performs steps one after another on a document that lies at a path. -/
def perform (path : String) : List (Step (Resolver σ)) → Value → Walk σ Value
  | [], document => return document
  | ⟨location, .refuse refusal⟩ :: _, _ =>
      Walk.reject (refusal.violation (KeyPath.render path location))
  | ⟨location, .consult resolver value stored⟩ :: rest, document => do
      let answer ← Walk.resolve resolver value (KeyPath.render path location)
      perform path rest (if stored then document.store location answer else document)

/-! ## What a plan holds -/

theorem present_absent {member : Option Value} (absent : Absent member)
    (plan : Value → List (Step ρ)) (optional : Bool) :
    present plan optional member = if optional then [] else [.refuse .missing] := by
  rcases absent with rfl | rfl <;> rfl

theorem present_some {value : Value} (held : value ≠ .null) (plan : Value → List (Step ρ))
    (optional : Bool) : present plan optional (some value) = plan value := by
  cases value with
  | null => exact absurd rfl held
  | bool | number | string | array | object => rfl

/-- Members of other names do not matter to the plan of the declared fields. -/
theorem fields_insert (strict : Bool) {name : String} (checked : Value)
    (declared : List (String × Field ρ)) (members : List (String × Value))
    (fresh : name ∉ Entries.names declared) :
    fields strict declared (Entries.insert name checked members) =
      fields strict declared members := by
  induction declared with
  | nil => simp [fields]
  | cons head rest ih =>
      obtain ⟨key, ⟨kind, optional⟩⟩ := head
      rw [Entries.names_cons, List.mem_cons, not_or] at fresh
      rw [fields, fields, Entries.get?_insert_of_ne fresh.1, ih fresh.2]

theorem mem_items_iff {plan : Value → List (Step ρ)} {index : Nat} {values : List Value}
    {step : Step ρ} :
    step ∈ items plan index values ↔ ∃ (offset : Nat) (value : Value),
      values[offset]? = some value ∧
      ∃ inner ∈ if value.isNull then [Step.refuse .missing] else plan value,
        step = inner.below (.item (index + offset)) := by
  induction values generalizing index with
  | nil => simp [items]
  | cons value rest ih =>
      rw [items, List.mem_append, List.mem_map, ih]
      have shift (offset : Nat) : index + 1 + offset = index + (offset + 1) := by omega
      constructor
      · intro listed
        rcases listed with ⟨inner, here, same⟩ | ⟨offset, later, found, inner, there, same⟩
        · exact ⟨0, value, rfl, inner, here, same.symm⟩
        · exact ⟨offset + 1, later, found, inner, there, shift offset ▸ same⟩
      · intro planned
        obtain ⟨offset, held, found, inner, listed, same⟩ := planned
        cases offset with
        | zero =>
            cases found
            exact .inl ⟨inner, listed, same.symm⟩
        | succ offset => exact .inr ⟨offset, held, found, inner, listed, shift offset ▸ same⟩

theorem fields_eq_flatMap (strict : Bool) (declared : List (String × Field ρ))
    (members : List (String × Value)) :
    fields strict declared members = declared.flatMap fun pair =>
      (present (fun value => field strict pair.2.kind value) pair.2.optional
        (Entries.get? pair.1 members)).map (Step.below (.member pair.1)) := by
  induction declared with
  | nil => simp [fields]
  | cons head rest ih =>
      obtain ⟨name, ⟨kind, optional⟩⟩ := head
      rw [fields, ih, List.flatMap_cons]

theorem mem_fields_iff {strict : Bool} {declared : List (String × Field ρ)}
    {members : List (String × Value)} {step : Step ρ} :
    step ∈ fields strict declared members ↔ ∃ name kind optional,
      (name, ⟨kind, optional⟩) ∈ declared ∧
      ∃ inner ∈ present (fun value => field strict kind value) optional (Entries.get? name members),
        step = inner.below (.member name) := by
  simp only [fields_eq_flatMap, List.mem_flatMap, List.mem_map]
  constructor
  · rintro ⟨⟨name, ⟨kind, optional⟩⟩, declares, inner, listed, rfl⟩
    exact ⟨name, kind, optional, declares, inner, listed, rfl⟩
  · rintro ⟨name, kind, optional, declares, inner, listed, rfl⟩
    exact ⟨(name, ⟨kind, optional⟩), declares, inner, listed, rfl⟩

private theorem map_below (change : ρ → τ) (segment : Segment) (steps : List (Step ρ)) :
    (steps.map (Step.below segment)).map (Step.map change) =
      (steps.map (Step.map change)).map (Step.below segment) := by
  rw [List.map_map, List.map_map]
  apply List.map_congr_left
  rintro ⟨location, action⟩ -
  cases action <;> rfl

private theorem map_items (change : ρ → τ) (plan : Value → List (Step ρ)) (index : Nat)
    (values : List Value) :
    (items plan index values).map (Step.map change) =
      items (fun value => (plan value).map (Step.map change)) index values := by
  induction values generalizing index with
  | nil => rfl
  | cons value rest ih =>
      rw [items, items, List.map_append, map_below, ih]
      split <;> rfl

private theorem undeclared_map (change : ρ → τ) (declared : List (String × Field ρ))
    (members : List (String × Value)) :
    undeclared (mapFields change declared) members =
      (undeclared declared members).map (Step.map change) := by
  simp only [undeclared, contains_mapFields, List.map_map]
  rfl

private theorem map_present (change : ρ → τ) (plan : Value → List (Step ρ)) (optional : Bool)
    (member : Option Value) :
    (present plan optional member).map (Step.map change) =
      present (fun value => (plan value).map (Step.map change)) optional member := by
  rcases absent_or_present member with absent | ⟨value, rfl, held⟩
  · rw [present_absent absent, present_absent absent]
    cases optional <;> rfl
  · rw [present_some held, present_some held]

mutual

private theorem item_map (change : ρ → τ) (strict : Bool) : (kind : ItemKind ρ) → ∀ value,
    item strict (kind.map change) value = (item strict kind value).map (Step.map change)
  | .scalar kind, value => by
      simp only [ItemKind.map, item]
      split <;> rfl
  | .object ⟨declared⟩, value => by
      cases value with
      | object members =>
          have others := fields_map change strict declared members
          simp only [ItemKind.map, Schema.map, item, object, others, undeclared_map,
            List.map_append]
          cases strict <;> rfl
      | null | bool | number | string | array => rfl
  | .custom resolver, value => rfl

private theorem field_map (change : ρ → τ) (strict : Bool) : (kind : FieldKind ρ) → ∀ value,
    field strict (kind.map change) value = (field strict kind value).map (Step.map change)
  | .item (.custom resolver), value => rfl
  | .item (.scalar kind), value => item_map change strict (.scalar kind) value
  | .item (.object schema), value => item_map change strict (.object schema) value
  | .array element, value => by
      cases value with
      | array values =>
          simp only [FieldKind.map, field, map_items, item_map change strict element]
      | null | bool | number | string | object => rfl

private theorem fields_map (change : ρ → τ) (strict : Bool) : (declared : List (String × Field ρ)) →
    ∀ members, fields strict (mapFields change declared) members =
      (fields strict declared members).map (Step.map change)
  | [], members => by
      simp [mapFields, fields]
  | (name, ⟨kind, optional⟩) :: rest, members => by
      simp only [mapFields, fields, List.map_append, map_below, map_present,
        field_map change strict kind, fields_map change strict rest]

end

theorem object_map (change : ρ → τ) (strict : Bool) (schema : Schema ρ)
    (members : List (String × Value)) :
    object strict (schema.map change) members =
      (object strict schema members).map (Step.map change) :=
  item_map change strict (.object schema) (.object members)

/-! ## Performing a plan -/

@[simp] theorem perform_nil (path : String) (document : Value) :
    perform (σ := σ) path [] document = pure document := rfl

theorem perform_append (path : String) (steps later : List (Step (Resolver σ)))
    (document : Value) :
    perform path (steps ++ later) document =
      perform path steps document >>= perform path later := by
  induction steps generalizing document with
  | nil => simp
  | cons step rest ih =>
      obtain ⟨location, action⟩ := step
      cases action with
      | refuse refusal => rfl
      | consult resolver value stored => simp [perform, ih]

/-- Steps below a segment work on what is inside the document there. -/
theorem perform_below {document inner : Value} {segment : Segment}
    (found : document.inside? segment = some inner) (path : String)
    (steps : List (Step (Resolver σ))) :
    perform path (steps.map (Step.below segment)) document =
      document.replace segment <$> perform (KeyPath.extend path segment) steps inner := by
  induction steps generalizing document inner with
  | nil => simp [Value.replace_inside? found]
  | cons step rest ih =>
      obtain ⟨location, action⟩ := step
      cases action with
      | refuse refusal => rfl
      | consult resolver value stored =>
          simp only [List.map_cons, Step.below, perform, KeyPath.render_cons, map_bind]
          congr 1
          funext answer
          cases stored with
          | false => exact ih found
          | true =>
              have held := Value.inside?_replace_self found (inner.store location answer)
              have settled := funext (Value.replace_replace document segment
                (inner.store location answer))
              simp only [↓reduceIte, Value.store_cons found, ih held, settled]

end Plan

end DocShape
