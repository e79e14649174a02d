import DocShape.Proofs.Validation

/-! Everything that is wrong with a schema or a document, in the order in which
a validation would come to it if it never stopped. With resolvers that keep no
state, a validation ends by the first finding. -/

set_option autoImplicit false

namespace DocShape

open Json (Value)

variable {σ : Type}

/-- A resolver whose answer depends on the value and its key path only. -/
abbrev PureResolver : Type :=
  Value → String → Except String Value

def Resolver.ofPure (resolver : PureResolver) : Resolver σ :=
  fun value path => pure (resolver value path)

def Step.finding? (path : String) : Step PureResolver → Option Error
  | ⟨location, .refuse refusal⟩ =>
      some (.rejected (refusal.violation (KeyPath.render path location)))
  | ⟨location, .consult resolver value _⟩ =>
      let place := KeyPath.render path location
      Call.error? ⟨place, value, resolver value place⟩

/-- The answer of a resolver that keeps no state is an error or kept. -/
theorem Walk.run_resolve_ofPure (resolver : PureResolver) (value : Value) (path : String)
    (state : σ) :
    (∃ error, Call.error? ⟨path, value, resolver value path⟩ = some error ∧
      (Walk.resolve (Resolver.ofPure resolver) value path).run.run state = (.error error, state)) ∨
    ∃ answer, Call.error? ⟨path, value, resolver value path⟩ = none ∧
      resolver value path = .ok answer ∧
      (Walk.resolve (Resolver.ofPure resolver) value path).run.run state = (.ok answer, state) := by
  have asked : (Resolver.ofPure resolver value path).run state = (resolver value path, state) := rfl
  cases faulty : Call.error? ⟨path, value, resolver value path⟩ with
  | some error => exact .inl ⟨error, rfl, Walk.run_resolve_failed asked faulty⟩
  | none =>
      obtain ⟨answer, answered, same⟩ := Call.error?_eq_none_iff.mp faulty
      have kept : resolver value path = .ok answer := answered
      rw [kept] at asked
      exact .inr ⟨answer, rfl, kept, Walk.run_resolve_answered asked same⟩

namespace Plan

def findings (path : String) (steps : List (Step PureResolver)) : List Error :=
  steps.filterMap (Step.finding? path)

@[simp] theorem findings_nil (path : String) : findings path [] = [] := rfl

theorem findings_append (path : String) (steps later : List (Step PureResolver)) :
    findings path (steps ++ later) = findings path steps ++ findings path later :=
  List.filterMap_append

theorem findings_below (path : String) (segment : Segment) (steps : List (Step PureResolver)) :
    findings path (steps.map (Step.below segment)) =
      findings (KeyPath.extend path segment) steps := by
  rw [findings, findings, List.filterMap_map]
  congr 1
  funext step
  obtain ⟨location, action⟩ := step
  cases action <;> rfl

/-- Performing stops at the first finding, and leaves the state as it is. -/
theorem run_perform_ofPure (path : String) (steps : List (Step PureResolver)) (document : Value)
    (state : σ) :
    ∃ result,
      (perform path (steps.map (Step.map Resolver.ofPure)) document).run.run state =
        (result, state) ∧
      ∀ error, result = .error error ↔ (findings path steps).head? = some error := by
  induction steps generalizing document with
  | nil => exact ⟨.ok document, rfl, by simp⟩
  | cons step rest ih =>
      obtain ⟨location, action⟩ := step
      cases action with
      | refuse refusal => exact ⟨_, rfl, by simp [findings, Step.finding?]⟩
      | consult resolver value stored =>
          rw [List.map_cons, Step.map, perform, Walk.run_bind]
          rcases Walk.run_resolve_ofPure resolver value (KeyPath.render path location) state with
            ⟨error, faulty, failed⟩ | ⟨answer, sound, -, ran⟩
          · have found : Step.finding? path ⟨location, .consult resolver value stored⟩ =
                some error := faulty
            rw [failed]
            exact ⟨.error error, rfl, by simp [findings, found]⟩
          · have found : Step.finding? path ⟨location, .consult resolver value stored⟩ =
                none := sound
            -- What is stored now changes the document only, which no finding is about.
            obtain ⟨result, ended, first⟩ :=
              ih (if stored then document.store location answer else document)
            rw [ran]
            refine ⟨result, ended, ?_⟩
            rwa [findings, List.filterMap_cons_none found]

end Plan

/-- A malformed schema is all that is found of it and a document, and that a
document is no object is all that is found of the document. -/
def Schema.findings (schema : Schema PureResolver) (options : Options) (document : Value) :
    List Error :=
  match schema.emptyObjects options.path with
  | [] =>
      match document with
      | .object members =>
          Plan.findings options.path (Plan.object options.strict schema members)
      | other => [.rejected (.wrongKind options.documentPlace "object" other)]
  | path :: paths => (path :: paths).map fun path => .malformed path .emptyObject

theorem run_validate_ofPure {schema : Schema PureResolver} (unique : schema.UniqueNames)
    (options : Options) (document : Value) (state : σ) :
    ∃ result,
      (validate (schema.map Resolver.ofPure) options document).run state = (result, state) ∧
      ∀ error, result = .error error ↔ (schema.findings options document).head? = some error := by
  have search (first : Option String) (listed : (schema.emptyObjects options.path).head? = first) :
      (schema.map (Resolver.ofPure : PureResolver → Resolver σ)).emptyObject? options.path =
        first := by
    rw [Schema.emptyObject?_map, Schema.emptyObject?_eq_head?, listed]
  cases listed : schema.emptyObjects options.path with
  | cons path paths =>
      rw [validate_malformed (search (some path) (by simp [listed]))]
      exact ⟨_, rfl, by simp [Schema.findings, listed]⟩
  | nil =>
      rw [validate_wellFormed (search none (by simp [listed]))]
      cases document with
      | object members =>
          have uniqueMapped :=
            Schema.uniqueNames_map (Resolver.ofPure : PureResolver → Resolver σ) unique
          rw [walkDocument_object uniqueMapped, Plan.object_map]
          simpa only [Schema.findings, listed] using Plan.run_perform_ofPure options.path
            (Plan.object options.strict schema members) (.object members) state
      | null | bool | number | string | array =>
          rw [walkDocument_other _ options (by simp)]
          exact ⟨_, rfl, by simp [Schema.findings, listed]⟩

/-- A result that ends by the first fault is one of success where there is none. -/
theorem accepted_iff_of_faults {result : Except Error Value} {findings : List Error}
    (faults : ∀ error, result = .error error ↔ findings.head? = some error) :
    (∃ out, result = .ok out) ↔ findings = [] := by
  cases result with
  | ok out =>
      have nothing (error : Error) : findings.head? ≠ some error := by
        intro found
        cases (faults error).mpr found
      simpa using List.head?_eq_none_iff.mp (Option.eq_none_iff_forall_ne_some.mpr nothing)
  | error error =>
      have found := (faults error).mp rfl
      constructor
      · rintro ⟨out, accepted⟩
        cases accepted
      · intro empty
        simp [empty] at found

/-- With resolvers that keep no state, a document is accepted where nothing is
found, and else rejected by what is found first. -/
theorem validate_first_finding (schema : Schema.Distinct PureResolver) (options : Options)
    (document : Value) (state : σ) :
    match schema.findings options document with
    | [] => ∃ out,
        (validate (schema.map Resolver.ofPure) options document).run state = (.ok out, state)
    | error :: _ =>
        (validate (schema.map Resolver.ofPure) options document).run state =
          (.error error, state) := by
  obtain ⟨result, ran, first⟩ := run_validate_ofPure schema.unique options document state
  rw [ran]
  cases found : schema.findings options document with
  | nil =>
      cases result with
      | ok out => exact ⟨out, rfl⟩
      | error error =>
          have listed := (first error).mp rfl
          simp [found] at listed
  | cons error others =>
      have ended := (first error).mpr (by simp [found])
      rw [ended]

def PureResolver.refusing : PureResolver := fun _ path =>
  .error ("not known at " ++ path)

def Schema.order : Schema PureResolver :=
  ⟨[("name", .string), ("code", .custom .refusing),
    ("lines", .array (.object ⟨[("amount", .number)]⟩))]⟩

def orderDocument : Value :=
  .object [("note", .null), ("lines", .array [.object [("amount", .string "two")], .null]),
    ("code", .string "x"), ("name", .bool true)]

/-- Of all that is wrong with the order, the member that is not declared comes first. -/
theorem validate_first_finding_order :
    Schema.order.UniqueNames ∧
      Schema.order.findings ⟨true, some "order"⟩ orderDocument =
        [.rejected (.unexpected "order.note" "note"),
          .rejected (.wrongKind "order.name" "string" (.bool true)),
          .resolverFailed "order.code" "not known at order.code",
          .rejected (.wrongKind "order.lines[0].amount" "number" (.string "two")),
          .rejected (.missing "order.lines[1]")] ∧
      (validate (Schema.order.map Resolver.ofPure) ⟨true, some "order"⟩ orderDocument).run () =
        (.error (.rejected (.unexpected "order.note" "note")), ()) := by
  have unique : Schema.order.UniqueNames := by decide
  have stops :=
    validate_first_finding ⟨Schema.order, unique⟩ ⟨true, some "order"⟩ orderDocument ()
  exact ⟨unique, rfl, stops⟩

end DocShape
