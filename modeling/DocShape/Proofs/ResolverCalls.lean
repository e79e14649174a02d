import DocShape.Proofs.Customs
import DocShape.Proofs.Validation

/-! Which calls a validation makes. Resolvers are asked in order about the custom
values of the document as it was given, until one of them fails or returns
another value, or until something else is refused. -/

set_option autoImplicit false

namespace DocShape

open Json (Value)

variable {σ : Type}

namespace Plan

variable {path : String} {steps : List (Step (Resolver σ))} {document out : Value}
  {state final : σ} {calls : List Call} {result : Except Error Value}

theorem Runs.asked_prefix (runs : Runs path steps document state calls result final) :
    calls.map Call.asked <+: (steps.filterMap Step.custom?).map (Custom.asked path) := by
  induction runs with
  | done => exact List.nil_prefix
  | refused => exact List.nil_prefix
  | failed => exact List.prefix_append [_] _
  | answered _ _ _ ih => exact List.cons_prefix_cons.mpr ⟨rfl, ih⟩

theorem Runs.asked_of_ok (runs : Runs path steps document state calls (.ok out) final) :
    calls.map Call.asked = (steps.filterMap Step.custom?).map (Custom.asked path) := by
  generalize ended : Except.ok out = result at runs
  induction runs with
  | done => rfl
  | refused => cases ended
  | failed => cases ended
  | answered _ _ _ ih => exact congrArg (List.cons _) (ih ended)

theorem Runs.earlier_calls (runs : Runs path steps document state calls result final) :
    ∀ call ∈ calls.dropLast, call.error? = none := by
  induction runs with
  | done => simp
  | refused => simp
  | failed => simp
  | @answered _ _ _ _ _ _ _ _ _ _ calls _ _ same _ ih =>
      cases calls with
      | nil => simp
      | cons next rest =>
          intro call listed
          rw [List.dropLast_cons_cons] at listed
          rcases List.mem_cons.mp listed with rfl | later
          · exact Call.error?_eq_none_iff.mpr ⟨_, rfl, same⟩
          · exact ih call later

/-- A run that ends otherwise than by refusing a value ends by its last call. -/
theorem Runs.error_iff (runs : Runs path steps document state calls result final)
    {error : Error} (notRejected : ∀ violation, error ≠ .rejected violation) :
    result = .error error ↔
      ∃ call, calls.getLast? = some call ∧ call.error? = some error := by
  induction runs with
  | done => simp
  | @refused location refusal =>
      have different := notRejected (refusal.violation (KeyPath.render path location))
      simp [different.symm]
  | failed _ faulty => simp [faulty]
  | @answered _ _ _ _ _ _ _ _ _ _ calls _ _ same _ ih =>
      rw [ih]
      cases calls with
      | nil => simp [Call.error?, same]
      | cons next rest => rw [List.getLast?_cons_cons]

end Plan

section

variable {schema : Schema (Resolver σ)} {options : Options} {document out : Value}
  {state final : σ} {calls : List Call} {result : Except Error Value}

theorem Validates.asked_prefix
    (validates : Validates schema options document state calls result final) :
    calls.map Call.asked <+: (schema.customs document).map (Custom.asked options.path) := by
  cases validates with
  | malformed => exact List.nil_prefix
  | notObject => exact List.nil_prefix
  | performed _ runs =>
      rw [← Customs.object_of_plan options.strict]
      exact runs.asked_prefix

theorem Validates.asked_of_ok
    (validates : Validates schema options document state calls (.ok out) final) :
    calls.map Call.asked = (schema.customs document).map (Custom.asked options.path) := by
  cases validates with
  | performed _ runs =>
      rw [← Customs.object_of_plan options.strict]
      exact runs.asked_of_ok

theorem Validates.no_calls
    (validates : Validates schema options document state calls result final)
    (idle : schema.Malformed ∨ ∀ members, document ≠ .object members) : calls = [] := by
  cases validates with
  | malformed => rfl
  | notObject => rfl
  | performed wellFormed _ =>
      rcases idle with malformed | other
      · exact absurd malformed (Schema.emptyObject?_eq_none_iff.mp wellFormed)
      · exact absurd rfl (other _)

theorem Validates.earlier_calls
    (validates : Validates schema options document state calls result final) :
    ∀ call ∈ calls.dropLast, call.error? = none := by
  cases validates with
  | malformed => simp
  | notObject => simp
  | performed _ runs => exact runs.earlier_calls

theorem Validates.error_iff
    (validates : Validates schema options document state calls result final) {error : Error}
    (notRejected : ∀ violation, error ≠ .rejected violation)
    (notMalformed : ∀ path fault, error ≠ .malformed path fault) :
    result = .error error ↔
      ∃ call, calls.getLast? = some call ∧ call.error? = some error := by
  cases validates with
  | @malformed _ _ path => simp [(notMalformed path .emptyObject).symm]
  | notObject => simp [(notRejected _).symm]
  | performed _ runs => exact runs.error_iff notRejected

end

/-- The log of a validation. Each custom value is asked about at most once, in
order, as it stood in the document; a resolver ends the validation exactly where
the last call went wrong, and none of the calls before it did. -/
theorem validate_calls (schema : Schema.Distinct (Resolver σ)) (options : Options)
    (document : Value) (state : σ) :
    ∃ result final log,
      (validate schema options document).run state = (result, final) ∧
      (validate (schema.map Resolver.logged) options document).run (state, []) =
        (result, (final, log)) ∧
      log.map Call.asked <+: (schema.customs document).map (Custom.asked options.path) ∧
      (∀ out, result = .ok out →
        log.map Call.asked = (schema.customs document).map (Custom.asked options.path)) ∧
      (schema.Malformed ∨ (∀ members, document ≠ .object members) → log = []) ∧
      (∀ path reason, result = .error (.resolverFailed path reason) ↔
        ∃ value, log.getLast? = some ⟨path, value, .error reason⟩) ∧
      (∀ path, result = .error (.resolverAltered path) ↔
        ∃ value answer, log.getLast? = some ⟨path, value, .ok answer⟩ ∧
          answer.sameValue value = false) ∧
      (∀ call ∈ log.dropLast, ∃ answer, call.answer = .ok answer ∧
        answer.sameValue call.value = true) ∧
      Customs.Separate (schema.customs document) ∧
      Customs.Held document (schema.customs document) := by
  obtain ⟨log, result, final, validates⟩ := exists_validates schema options document state
  have logged := validates.run_logged schema.unique
  refine ⟨result, final, log, validates.run_validate schema.unique, logged, validates.asked_prefix,
    ?ok, validates.no_calls, ?failed, ?altered, ?earlier,
    Customs.separate_customs schema.unique document, Customs.held_customs schema.toSchema document⟩
  case ok =>
    intro out accepted
    subst accepted
    exact validates.asked_of_ok
  case failed =>
    intro path reason
    rw [validates.error_iff (by simp) (by simp)]
    constructor
    · intro ended
      obtain ⟨⟨place, value, answer⟩, last, faulty⟩ := ended
      obtain ⟨rfl, rfl⟩ := Call.error?_eq_failed_iff.mp faulty
      exact ⟨value, last⟩
    · intro ended
      obtain ⟨value, last⟩ := ended
      exact ⟨_, last, rfl⟩
  case altered =>
    intro path
    rw [validates.error_iff (by simp) (by simp)]
    constructor
    · intro ended
      obtain ⟨⟨place, value, answer⟩, last, faulty⟩ := ended
      obtain ⟨rfl, kept, rfl, different⟩ := Call.error?_eq_altered_iff.mp faulty
      exact ⟨value, kept, last, different⟩
    · intro ended
      obtain ⟨value, kept, last, different⟩ := ended
      exact ⟨_, last, Call.error?_eq_altered_iff.mpr ⟨rfl, kept, rfl, different⟩⟩
  case earlier =>
    intro call listed
    exact Call.error?_eq_none_iff.mp (validates.earlier_calls call listed)

def Resolver.limited (limit : Nat) : Resolver Nat := fun value path used =>
  if used < limit then (.ok value, used + 1)
  else (.error ("no call left for " ++ path), used)

def Schema.limited : Schema (Resolver Nat) :=
  ⟨[("id", .custom (.limited 1)), ("tags", .array (.custom (.limited 1)))]⟩

/-- With one call allowed, the item of the array, though first in the document,
is asked about last and in vain. -/
theorem validate_calls_limited :
    Schema.limited.UniqueNames ∧ ∃ log,
      (validate (Schema.limited.map Resolver.logged) ⟨true, some "body"⟩
          (.object [("tags", .array [.string "new"]), ("id", .string "x")])).run (0, []) =
        (.error (.resolverFailed "body.tags[0]" "no call left for body.tags[0]"), (1, log)) ∧
      log.map Call.asked <+: [("body.id", .string "x"), ("body.tags[0]", .string "new")] ∧
      ∃ value, log.getLast? =
        some ⟨"body.tags[0]", value, .error "no call left for body.tags[0]"⟩ := by
  have unique : Schema.limited.UniqueNames := by decide
  obtain ⟨result, final, log, ran, logged, askedPrefix, -, -, failed, -⟩ :=
    validate_calls ⟨Schema.limited, unique⟩ ⟨true, some "body"⟩
      (.object [("tags", .array [.string "new"]), ("id", .string "x")]) 0
  have ended : (result, final) =
      (.error (.resolverFailed "body.tags[0]" "no call left for body.tags[0]"), 1) :=
    ran.symm.trans rfl
  obtain ⟨rfl, rfl⟩ := Prod.mk.inj ended
  exact ⟨unique, log, logged, askedPrefix, (failed _ _).mp rfl⟩

end DocShape
