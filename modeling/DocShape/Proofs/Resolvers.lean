import DocShape.Proofs.ResolverCalls

/-! The resolvers that a schema holds. A validation asks no others, so that one
of a schema without resolvers hands the document back or rejects it. -/

set_option autoImplicit false

namespace DocShape

open Json (Value)

variable {σ ρ : Type}

mutual

def ItemKind.resolvers : ItemKind ρ → List ρ
  | .scalar _ => []
  | .object schema => schema.resolvers
  | .custom resolver => [resolver]

def FieldKind.resolvers : FieldKind ρ → List ρ
  | .item kind => kind.resolvers
  | .array element => element.resolvers

/-- The resolvers at any depth, in order of declaration. -/
def Schema.resolvers : Schema ρ → List ρ
  | ⟨fields⟩ => resolversIn fields

def resolversIn : List (String × Field ρ) → List ρ
  | [] => []
  | (_, ⟨kind, _⟩) :: rest => kind.resolvers ++ resolversIn rest

end

theorem mem_resolversIn_iff {resolver : ρ} {fields : List (String × Field ρ)} :
    resolver ∈ resolversIn fields ↔ ∃ pair ∈ fields, resolver ∈ pair.2.kind.resolvers := by
  induction fields with
  | nil => simp [resolversIn]
  | cons head rest ih =>
      obtain ⟨name, ⟨kind, optional⟩⟩ := head
      simp [resolversIn, ih]

def Step.resolver? : Step ρ → Option ρ
  | ⟨_, .refuse _⟩ => none
  | ⟨_, .consult resolver _ _⟩ => some resolver

namespace Plan

/-- The resolvers that a plan asks. -/
def consulted (steps : List (Step ρ)) : List ρ :=
  steps.filterMap Step.resolver?

private theorem consulted_append (steps later : List (Step ρ)) :
    consulted (steps ++ later) = consulted steps ++ consulted later :=
  List.filterMap_append

private theorem consulted_below (segment : Segment) (steps : List (Step ρ)) :
    consulted (steps.map (Step.below segment)) = consulted steps := by
  rw [consulted, consulted, List.filterMap_map]
  congr 1
  funext step
  obtain ⟨location, action⟩ := step
  cases action <;> rfl

private theorem consulted_undeclared (declared : List (String × Field ρ))
    (members : List (String × Value)) : consulted (undeclared declared members) = [] := by
  rw [consulted, List.filterMap_eq_nil_iff]
  intro step listed
  obtain ⟨name, -, rfl⟩ := List.mem_map.mp listed
  rfl

private theorem consulted_items {plan : Value → List (Step ρ)} {resolvers : List ρ}
    (within : ∀ value, consulted (plan value) ⊆ resolvers) (index : Nat) (values : List Value) :
    consulted (items plan index values) ⊆ resolvers := by
  induction values generalizing index with
  | nil => exact List.nil_subset _
  | cons value rest ih =>
      rw [items, consulted_append, consulted_below]
      apply List.append_subset.mpr
      refine ⟨?_, ih (index + 1)⟩
      split
      · exact List.nil_subset _
      · exact within value

private theorem consulted_present {plan : Value → List (Step ρ)} {resolvers : List ρ}
    (within : ∀ value, consulted (plan value) ⊆ resolvers) (optional : Bool)
    (member : Option Value) : consulted (present plan optional member) ⊆ resolvers := by
  rcases absent_or_present member with absent | ⟨value, rfl, held⟩
  · rw [present_absent absent]
    cases optional <;> exact List.nil_subset _
  · rw [present_some held]
    exact within value

theorem consulted_object (strict : Bool) (declared : List (String × Field ρ))
    (members : List (String × Value)) :
    consulted (object strict ⟨declared⟩ members) = consulted (fields strict declared members) := by
  rw [object, consulted_append]
  cases strict with
  | false => rfl
  | true =>
      rw [if_pos rfl, consulted_undeclared]
      rfl

mutual

private theorem consulted_item (strict : Bool) : (kind : ItemKind ρ) → ∀ value,
    consulted (item strict kind value) ⊆ kind.resolvers
  | .scalar kind, value => by
      rw [item]
      split <;> exact List.nil_subset _
  | .object ⟨declared⟩, value => by
      cases value with
      | object members =>
          rw [item, consulted_object]
          exact consulted_fields strict declared members
      | null | bool | number | string | array => exact List.nil_subset _
  | .custom resolver, value => List.Subset.refl _

private theorem consulted_field (strict : Bool) : (kind : FieldKind ρ) → ∀ value,
    consulted (field strict kind value) ⊆ kind.resolvers
  | .item (.custom resolver), value => List.Subset.refl _
  | .item (.scalar kind), value => consulted_item strict (.scalar kind) value
  | .item (.object schema), value => consulted_item strict (.object schema) value
  | .array element, value => by
      cases value with
      | array values => exact consulted_items (consulted_item strict element) 0 values
      | null | bool | number | string | object => exact List.nil_subset _

private theorem consulted_fields (strict : Bool) : (declared : List (String × Field ρ)) → ∀ members,
    consulted (fields strict declared members) ⊆ resolversIn declared
  | [], members => by
      rw [fields]
      exact List.nil_subset _
  | (name, ⟨kind, optional⟩) :: rest, members => by
      have here := consulted_present (consulted_field strict kind) optional
        (Entries.get? name members)
      rw [fields, consulted_append, consulted_below, resolversIn]
      exact List.append_subset.mpr
        ⟨List.subset_append_of_subset_left _ here,
          List.subset_append_of_subset_right _ (consulted_fields strict rest members)⟩

end

variable {path : String} {steps : List (Step (Resolver σ))} {document : Value}
  {state final : σ} {calls : List Call} {result : Except Error Value}

theorem Runs.of_consulted_nil (runs : Runs path steps document state calls result final)
    (noResolver : consulted steps = []) :
    result = .ok document ∨ ∃ violation, result = .error (.rejected violation) := by
  cases runs with
  | done => exact .inl rfl
  | refused => exact .inr ⟨_, rfl⟩
  | failed => cases noResolver
  | answered => cases noResolver

end Plan

theorem Schema.consulted_object (schema : Schema ρ) (strict : Bool)
    (members : List (String × Value)) :
    Plan.consulted (Plan.object strict schema members) ⊆ schema.resolvers := by
  obtain ⟨declared⟩ := schema
  rw [Plan.consulted_object]
  exact Plan.consulted_fields strict declared members

theorem Call.error?_ne_malformed (call : Call) (path : String) (fault : SchemaFault) :
    call.error? ≠ some (.malformed path fault) := by
  obtain ⟨place, value, answer | answer⟩ := call
  · simp [error?]
  · simp [error?]

theorem Validates.ne_malformed {schema : Schema (Resolver σ)} {options : Options}
    {document : Value} {state final : σ} {calls : List Call} {result : Except Error Value}
    (validates : Validates schema options document state calls result final)
    (wellFormed : ¬ schema.Malformed) (path : String) (fault : SchemaFault) :
    result ≠ .error (.malformed path fault) := by
  have sound : schema.emptyObject? options.path = none :=
    Schema.emptyObject?_eq_none_iff.mpr wellFormed
  cases validates with
  | malformed empty =>
      rw [sound] at empty
      cases empty
  | notObject => simp
  | performed _ runs =>
      intro ended
      obtain ⟨call, -, faulty⟩ := (runs.error_iff (by simp)).mp ended
      exact call.error?_ne_malformed path fault faulty

/-- Without resolvers, a document is handed back as it was given or rejected. -/
theorem validate_of_resolvers_nil {schema : Schema (Resolver σ)} (unique : schema.UniqueNames)
    (noResolver : schema.resolvers = []) (wellFormed : ¬ schema.Malformed) (options : Options)
    (document : Value) (state : σ) :
    ((validate schema options document).run state).1 = .ok document ∨
      ∃ violation, ((validate schema options document).run state).1 =
        .error (.rejected violation) := by
  obtain ⟨calls, result, final, validates⟩ := exists_validates schema options document state
  rw [validates.run_validate unique]
  have sound := validates.ne_malformed wellFormed
  cases validates with
  | malformed => exact absurd rfl (sound _ _)
  | notObject => exact .inr ⟨_, rfl⟩
  | @performed members _ _ _ _ _ runs =>
      have within := schema.consulted_object options.strict members
      rw [noResolver, List.subset_nil] at within
      exact runs.of_consulted_nil within

end DocShape
