import DocShape.Proofs.Walk

/-! The resolver calls of a run. Resolvers share a state and may do with it what
they like; a log is kept by resolvers that write down each call beside what they
do, which changes nothing else about the run. -/

set_option autoImplicit false

namespace DocShape

open Json (Value)

variable {σ : Type}

structure Call where
  path : String
  value : Value
  answer : Except String Value

namespace Call

def asked (call : Call) : String × Value :=
  (call.path, call.value)

/-- The error that the call ends a walk with, none where the answer is the value
that the resolver was given. -/
def error? : Call → Option Error
  | ⟨path, _, .error reason⟩ => some (.resolverFailed path reason)
  | ⟨path, value, .ok answer⟩ =>
      if answer.sameValue value then none else some (.resolverAltered path)

theorem error?_eq_none_iff {call : Call} :
    call.error? = none ↔
      ∃ answer, call.answer = .ok answer ∧ answer.sameValue call.value = true := by
  obtain ⟨path, value, answer | answer⟩ := call
  · simp [error?]
  · simp [error?]

theorem error?_eq_failed_iff {call : Call} {path reason : String} :
    call.error? = some (.resolverFailed path reason) ↔
      call.path = path ∧ call.answer = .error reason := by
  obtain ⟨place, value, answer | answer⟩ := call
  · simp [error?]
  · simp [error?]

theorem error?_eq_altered_iff {call : Call} {path : String} :
    call.error? = some (.resolverAltered path) ↔
      call.path = path ∧ ∃ answer, call.answer = .ok answer ∧
        answer.sameValue call.value = false := by
  obtain ⟨place, value, answer | answer⟩ := call
  · simp [error?]
  · simp [error?, and_comm]

end Call

/-- Does what the resolver does, and writes the call down behind those before it. -/
def Resolver.logged (resolver : Resolver σ) : Resolver (σ × List Call) :=
  fun value path held =>
    let (answer, next) := (resolver value path).run held.1
    (answer, (next, held.2 ++ [⟨path, value, answer⟩]))

theorem Resolver.run_logged {resolver : Resolver σ} {value : Value} {path : String}
    {state next : σ} {answer : Except String Value}
    (asked : (resolver value path).run state = (answer, next)) (log : List Call) :
    (resolver.logged value path).run (state, log) =
      (answer, (next, log ++ [⟨path, value, answer⟩])) := by
  change (let (answer, next) := (resolver value path).run state
    (answer, (next, log ++ [(⟨path, value, answer⟩ : Call)]))) = _
  rw [asked]

namespace Walk

theorem run_bind {α β : Type} (walk : Walk σ α) (next : α → Walk σ β) (state : σ) :
    (walk >>= next).run.run state =
      match walk.run.run state with
      | (.ok value, reached) => (next value).run.run reached
      | (.error error, reached) => (.error error, reached) := by
  rw [ExceptT.run_bind, StateT.run_bind]
  rcases walk.run.run state with ⟨error | value, reached⟩ <;> rfl

variable {resolver : Resolver σ} {value : Value} {path : String} {state next : σ}

private theorem run_asked {answer : Except String Value}
    (asked : (resolver value path).run state = (answer, next)) :
    (liftM (resolver value path) : Walk σ (Except String Value)).run.run state =
      (.ok answer, next) := by
  rw [ExceptT.run_liftM, StateT.run_map, asked]
  rfl

theorem run_resolve_answered {answer : Value}
    (asked : (resolver value path).run state = (.ok answer, next))
    (same : answer.sameValue value = true) :
    (resolve resolver value path).run.run state = (.ok answer, next) := by
  rw [resolve, run_bind, run_asked asked]
  simp only [same, ↓reduceIte]
  rfl

theorem run_resolve_failed {answer : Except String Value} {error : Error}
    (asked : (resolver value path).run state = (answer, next))
    (faulty : Call.error? ⟨path, value, answer⟩ = some error) :
    (resolve resolver value path).run.run state = (.error error, next) := by
  rw [resolve, run_bind, run_asked asked]
  cases answer with
  | error reason =>
      simp only [Call.error?, Option.some.injEq] at faulty
      subst error
      rfl
  | ok answer =>
      simp only [Call.error?, Option.ite_none_left_eq_some, Option.some.injEq] at faulty
      obtain ⟨different, rfl⟩ := faulty
      simp only [different]
      rfl

end Walk

def Step.refusal? {ρ : Type} : Step ρ → Option (Location × Refusal)
  | ⟨location, .refuse refusal⟩ => some (location, refusal)
  | ⟨_, .consult _ _ _⟩ => none

namespace Plan

/-- How performing steps on a document ends: the calls made, the outcome and the
state reached. -/
inductive Runs (path : String) : List (Step (Resolver σ)) → Value → σ → List Call →
    Except Error Value → σ → Prop where
  | done {document : Value} {state : σ} : Runs path [] document state [] (.ok document) state
  | refused {location : Location} {refusal : Refusal} {rest : List (Step (Resolver σ))}
      {document : Value} {state : σ} :
      Runs path (⟨location, .refuse refusal⟩ :: rest) document state []
        (.error (.rejected (refusal.violation (KeyPath.render path location)))) state
  | failed {location : Location} {resolver : Resolver σ} {value : Value} {stored : Bool}
      {rest : List (Step (Resolver σ))} {document : Value} {state next : σ}
      {answer : Except String Value} {error : Error}
      (asked : (resolver value (KeyPath.render path location)).run state = (answer, next))
      (faulty : Call.error? ⟨KeyPath.render path location, value, answer⟩ = some error) :
      Runs path (⟨location, .consult resolver value stored⟩ :: rest) document state
        [⟨KeyPath.render path location, value, answer⟩] (.error error) next
  | answered {location : Location} {resolver : Resolver σ} {value : Value} {stored : Bool}
      {rest : List (Step (Resolver σ))} {document answer : Value} {state next final : σ}
      {calls : List Call} {result : Except Error Value}
      (asked : (resolver value (KeyPath.render path location)).run state = (.ok answer, next))
      (same : answer.sameValue value = true)
      (later : Runs path rest (if stored then document.store location answer else document) next
        calls result final) :
      Runs path (⟨location, .consult resolver value stored⟩ :: rest) document state
        (⟨KeyPath.render path location, value, .ok answer⟩ :: calls) result final

theorem exists_runs (path : String) (steps : List (Step (Resolver σ))) (document : Value)
    (state : σ) : ∃ calls result final, Runs path steps document state calls result final := by
  induction steps generalizing document state with
  | nil => exact ⟨_, _, _, .done⟩
  | cons step rest ih =>
      obtain ⟨location, action⟩ := step
      cases action with
      | refuse refusal => exact ⟨_, _, _, .refused⟩
      | consult resolver value stored =>
          rcases asked : (resolver value (KeyPath.render path location)).run state with
            ⟨answer, next⟩
          cases faulty : Call.error? ⟨KeyPath.render path location, value, answer⟩ with
          | some error => exact ⟨_, _, _, .failed asked faulty⟩
          | none =>
              obtain ⟨kept, rfl, same⟩ := Call.error?_eq_none_iff.mp faulty
              obtain ⟨calls, result, final, later⟩ := ih
                (if stored then document.store location kept else document) next
              exact ⟨_, _, _, .answered asked same later⟩

variable {path : String} {steps : List (Step (Resolver σ))} {document : Value} {state final : σ}
  {calls : List Call} {result : Except Error Value}

theorem Runs.run_perform (runs : Runs path steps document state calls result final) :
    (perform path steps document).run.run state = (result, final) := by
  induction runs with
  | done => rfl
  | refused => rfl
  | failed asked faulty =>
      rw [perform, Walk.run_bind, Walk.run_resolve_failed asked faulty]
  | answered asked same _ ih =>
      rw [perform, Walk.run_bind, Walk.run_resolve_answered asked same]
      exact ih

theorem Runs.run_logged (runs : Runs path steps document state calls result final)
    (log : List Call) :
    (perform path (steps.map (Step.map Resolver.logged)) document).run.run (state, log) =
      (result, (final, log ++ calls)) := by
  induction runs generalizing log with
  | done => simp only [List.append_nil]; rfl
  | refused => simp only [List.append_nil]; rfl
  | failed asked faulty =>
      have logged := Resolver.run_logged asked log
      rw [List.map_cons, Step.map, perform, Walk.run_bind,
        Walk.run_resolve_failed logged faulty]
  | answered asked same _ ih =>
      have logged := Resolver.run_logged asked log
      rw [List.map_cons, Step.map, perform, Walk.run_bind,
        Walk.run_resolve_answered logged same]
      exact (ih _).trans (by rw [List.append_assoc, List.singleton_append])

/-- The refusal that ends a run of the steps unless a resolver ends it before. -/
def firstRefusal? {ρ : Type} (steps : List (Step ρ)) : Option (Location × Refusal) :=
  steps.findSome? Step.refusal?

theorem Runs.firstRefusal?_of_ok {out : Value}
    (runs : Runs path steps document state calls (.ok out) final) :
    firstRefusal? steps = none := by
  generalize ended : Except.ok out = result at runs
  induction runs with
  | done => rfl
  | refused => cases ended
  | failed => cases ended
  | answered _ _ _ ih => exact ih ended

theorem Runs.firstRefusal?_of_rejected {violation : Violation}
    (runs : Runs path steps document state calls (.error (.rejected violation)) final) :
    ∃ location refusal, firstRefusal? steps = some (location, refusal) ∧
      violation = refusal.violation (KeyPath.render path location) := by
  generalize ended : Except.error (Error.rejected violation) = result at runs
  induction runs with
  | done => cases ended
  | @refused location refusal =>
      cases ended
      exact ⟨location, refusal, rfl, rfl⟩
  | @failed _ _ _ _ _ _ _ _ answer _ _ faulty =>
      cases ended
      cases answer with
      | error reason => simp [Call.error?] at faulty
      | ok answer => simp [Call.error?] at faulty
  | answered _ _ _ ih => exact ih ended

/-- A rejection is that of a step that refuses. -/
theorem Runs.exists_refused {violation : Violation}
    (runs : Runs path steps document state calls (.error (.rejected violation)) final) :
    ∃ location refusal, ⟨location, .refuse refusal⟩ ∈ steps ∧
      violation = refusal.violation (KeyPath.render path location) := by
  obtain ⟨location, refusal, first, same⟩ := runs.firstRefusal?_of_rejected
  obtain ⟨step, listed, refuses⟩ := List.exists_of_findSome?_eq_some first
  obtain ⟨place, action⟩ := step
  cases action with
  | consult resolver value stored => cases refuses
  | refuse other =>
      cases refuses
      exact ⟨location, refusal, listed, same⟩

end Plan

end DocShape
