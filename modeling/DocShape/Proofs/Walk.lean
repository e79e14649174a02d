import DocShape.Proofs.Plan

/-! A walk performs its plan. The plan is made from the document as it was
given, while the walk works on what it has stored so far; they agree because no
level declares a name twice. -/

set_option autoImplicit false

namespace DocShape

open Json (Value)

variable {σ : Type}

namespace Walk

@[simp] theorem reject_bind {α β : Type} (violation : Violation) (next : α → Walk σ β) :
    reject violation >>= next = reject violation := rfl

@[simp] theorem map_reject {α β : Type} (change : α → β) (violation : Violation) :
    change <$> (reject violation : Walk σ α) = reject violation := rfl

theorem fields_cons_absent {name : String} {members : List (String × Value)}
    (absent : Absent (Entries.get? name members)) (strict : Bool)
    (kind : FieldKind (Resolver σ)) (optional : Bool)
    (rest : List (String × Field (Resolver σ))) (path : String) :
    fields strict ((name, ⟨kind, optional⟩) :: rest) members path =
      if optional then fields strict rest members path
      else reject (.missing (KeyPath.join path name)) := by
  rcases absent with missing | isNull
  · simp only [fields, missing]
  · simp only [fields, isNull]

theorem fields_cons_present {name : String} {members : List (String × Value)} {value : Value}
    (found : Entries.get? name members = some value) (held : value ≠ .null) (strict : Bool)
    (kind : FieldKind (Resolver σ)) (optional : Bool)
    (rest : List (String × Field (Resolver σ))) (path : String) :
    fields strict ((name, ⟨kind, optional⟩) :: rest) members path = (do
      let checked ← field strict kind value (KeyPath.join path name)
      fields strict rest (Entries.insert name checked members) path) := by
  cases value with
  | null => exact absurd rfl held
  | bool | number | string | array | object => simp only [fields, found]

/-- A check that goes along with a change of the items goes along with it for all of them. -/
theorem items_map {change : Value → Value} {check changed : Value → String → Walk σ Value}
    (sameNull : ∀ value, (change value).isNull = value.isNull) (values : List Value)
    (each : ∀ value ∈ values, ∀ path, changed (change value) path = change <$> check value path)
    (path : String) (index : Nat) :
    items changed path index (values.map change) =
      List.map change <$> items check path index values := by
  induction values generalizing index with
  | nil => simp [items]
  | cons value rest ih =>
      obtain ⟨here, others⟩ := List.forall_mem_cons.mp each
      rw [List.map_cons, items, items, sameNull]
      split
      · simp
      · simp [here, ih others]

/-- The items before the index are done; the walk and the plan go on with the others. -/
theorem items_eq_perform (check : Value → String → Walk σ Value)
    (plan : Value → List (Step (Resolver σ)))
    (agrees : ∀ value path, check value path = Plan.perform path (plan value) value)
    (path : String) (done : List Value) (values : List Value) :
    (fun others => .array (done ++ others)) <$> items check path done.length values =
      Plan.perform path (Plan.items plan done.length values) (.array (done ++ values)) := by
  induction values generalizing done with
  | nil => simp [items, Plan.items]
  | cons value rest ih =>
      have found : (Value.array (done ++ value :: rest)).inside? (.item done.length) =
          some value := by
        simp [Value.inside?]
      rw [items, Plan.items, Plan.perform_append, Plan.perform_below found]
      by_cases isNull : value.isNull = true
      · simp [isNull, Plan.perform, Step.refuse, Refusal.violation, KeyPath.extend]
      · have settled (checked : Value) :
            (Value.array (done ++ value :: rest)).replace (.item done.length) checked =
              .array (done ++ checked :: rest) := by
          simp [Value.replace]
        have next (checked : Value) :
            (fun others => .array (done ++ checked :: others)) <$>
                items check path (done.length + 1) rest =
              Plan.perform path (Plan.items plan (done.length + 1) rest)
                (.array (done ++ checked :: rest)) := by
          simpa using ih (done ++ [checked])
        simp [isNull, agrees, settled, KeyPath.extend, next, Functor.map_map]

/-- The strict check stops at the first of the steps that the plan has for it. -/
theorem perform_undeclared (declared : List (String × Field (Resolver σ)))
    (members : List (String × Value)) (path : String) (later : List (Step (Resolver σ)))
    (document : Value) :
    Plan.perform path (Plan.undeclared declared members ++ later) document =
      match undeclared? declared members with
      | some name => reject (.unexpected (KeyPath.join path name) name)
      | none => Plan.perform path later document := by
  rw [undeclared?, ← List.head?_filter, Plan.undeclared]
  cases (Entries.names members).filter fun name => !Entries.contains name declared with
  | nil => rfl
  | cons name names => rfl

private theorem object_eq_perform {strict : Bool} {declared : List (String × Field (Resolver σ))}
    {members : List (String × Value)} {path : String}
    (agrees : Value.object <$> fields strict declared members path =
      Plan.perform path (Plan.fields strict declared members) (.object members)) :
    Value.object <$> object strict ⟨declared⟩ members path =
      Plan.perform path (Plan.object strict ⟨declared⟩ members) (.object members) := by
  cases strict with
  | false => simpa [object, Plan.object] using agrees
  | true =>
      simp only [object, Plan.object, ↓reduceIte, perform_undeclared]
      cases undeclared? declared members with
      | none => exact agrees
      | some name => rfl

mutual

private theorem item_eq_perform (strict : Bool) : (kind : ItemKind (Resolver σ)) →
    kind.UniqueNames →
    ∀ value path, item strict kind value path =
      Plan.perform path (Plan.item strict kind value) value
  | .scalar kind, _, value, path => by
      simp only [item, Plan.item]
      split <;> rfl
  | .object ⟨declared⟩, unique, value, path => by
      cases value with
      | object members =>
          have agrees :=
            object_eq_perform (fields_eq_perform strict declared unique.1 unique.2 members path)
          simpa [item, Plan.item] using agrees
      | null | bool | number | string | array => rfl
  | .custom resolver, _, value, path => by
      simp [item, Plan.item, Step.consult, Plan.perform]

private theorem field_eq_perform (strict : Bool) : (kind : FieldKind (Resolver σ)) →
    kind.UniqueNames →
    ∀ value path, field strict kind value path =
      Plan.perform path (Plan.field strict kind value) value
  | .item (.custom resolver), _, value, path => by
      simp [field, Plan.field, Step.consult, Plan.perform]
  | .item (.scalar kind), unique, value, path =>
      item_eq_perform strict (.scalar kind) unique value path
  | .item (.object schema), unique, value, path =>
      item_eq_perform strict (.object schema) unique value path
  | .array element, unique, value, path => by
      cases value with
      | array values =>
          have agrees := item_eq_perform strict element unique
          simpa [field, Plan.field] using items_eq_perform _ _ agrees path [] values
      | null | bool | number | string | object => rfl

private theorem fields_eq_perform (strict : Bool) :
    (declared : List (String × Field (Resolver σ))) →
    (Entries.names declared).Nodup → UniqueNamesIn declared → ∀ members path,
    Value.object <$> fields strict declared members path =
      Plan.perform path (Plan.fields strict declared members) (.object members)
  | [], _, _, members, path => by
      simp [fields, Plan.fields]
  | (name, ⟨kind, optional⟩) :: rest, distinct, unique, members, path => by
      rw [Entries.names_cons, List.nodup_cons] at distinct
      have others := fields_eq_perform strict rest distinct.2 unique.2
      rcases absent_or_present (Entries.get? name members) with absent | ⟨value, found, held⟩
      · rw [fields_cons_absent absent, Plan.fields, Plan.present_absent absent]
        cases optional with
        | true => simpa using others members path
        | false => rfl
      · have inside : (Value.object members).inside? (.member name) = some value := found
        have here := field_eq_perform strict kind unique.1 value (KeyPath.join path name)
        -- What the field stores is not seen by the steps of the fields after it.
        have later (checked : Value) :
            Value.object <$> fields strict rest (Entries.insert name checked members) path =
              Plan.perform path (Plan.fields strict rest members)
                (.object (Entries.insert name checked members)) := by
          rw [others, Plan.fields_insert strict checked rest members distinct.1]
        rw [fields_cons_present found held, Plan.fields, found, Plan.present_some held,
          Plan.perform_append, Plan.perform_below inside]
        simp [here, later, KeyPath.extend, Value.replace]

end

end Walk

theorem walkDocument_object {schema : Schema (Resolver σ)} (unique : schema.UniqueNames)
    (options : Options) (members : List (String × Value)) :
    walkDocument schema options (.object members) =
      Plan.perform options.path (Plan.object options.strict schema members) (.object members) := by
  obtain ⟨declared⟩ := schema
  have agrees := Walk.object_eq_perform
    (Walk.fields_eq_perform options.strict declared unique.1 unique.2 members options.path)
  simpa [walkDocument] using agrees

end DocShape
