import DocShape.Proofs.Resolvers
import DocShape.Proofs.SamePlan

/-! Validations of two values that are the same, with resolvers that do not tell
such values apart. They end alike: the order of names shows in nothing but which
undeclared member of an object is refused, the form of numbers in nothing. -/

set_option autoImplicit false

namespace DocShape

open Json (Value)

variable {σ : Type}

/-! ## Resolvers that do not tell same values apart -/

/-- What two runs of resolvers may differ in. -/
structure Likeness (σ : Type) where
  states : σ → σ → Prop
  reasons : String → String → Prop

variable {like : Likeness σ}

inductive Likeness.Answers (like : Likeness σ) :
    Except String Value × σ → Except String Value × σ → Prop where
  | failed {reason reason' : String} {next next' : σ} (reasons : like.reasons reason reason')
      (states : like.states next next') :
      Answers like (.error reason, next) (.error reason', next')
  | answered {answer answer' : Value} {next next' : σ} (same : answer.Same answer')
      (states : like.states next next') : Answers like (.ok answer, next) (.ok answer', next')

/-- About same values at one path, in like states, the resolver fails for like
reasons or succeeds with same values, and leaves like states behind. -/
def Resolver.Respects (like : Likeness σ) (resolver : Resolver σ) : Prop :=
  ∀ (path : String) (value value' : Value) (state state' : σ), value.Same value' →
    like.states state state' →
      like.Answers ((resolver value path).run state) ((resolver value' path).run state')

/-! ## Ending alike -/

/-- How the error for the left value compares with the one for the right, where the
path is that of the document. -/
inductive SameError (like : Likeness σ) (levels : Location → Schema (Resolver σ) → Prop)
    (path : String) (left right : Value) : Error → Error → Prop where
  | wrongKind {place expected : String} {actual actual' : Value}
      (same : actual.sameValue actual' = true) :
      SameError like levels path left right (.rejected (.wrongKind place expected actual))
        (.rejected (.wrongKind place expected actual'))
  | missing {place : String} :
      SameError like levels path left right (.rejected (.missing place))
        (.rejected (.missing place))
  | unexpected {place : Location} {first second : String}
      (strays : Strays levels left right place first second) :
      SameError like levels path left right
        (.rejected (.unexpected (KeyPath.join (KeyPath.render path place) first) first))
        (.rejected (.unexpected (KeyPath.join (KeyPath.render path place) second) second))
  | malformed {place : String} {fault : SchemaFault} :
      SameError like levels path left right (.malformed place fault) (.malformed place fault)
  | resolverAltered {place : String} :
      SameError like levels path left right (.resolverAltered place) (.resolverAltered place)
  | resolverFailed {place reason reason' : String} (reasons : like.reasons reason reason') :
      SameError like levels path left right (.resolverFailed place reason)
        (.resolverFailed place reason')

inductive SameResult (like : Likeness σ) (levels : Location → Schema (Resolver σ) → Prop)
    (path : String) (left right : Value) : Except Error Value → Except Error Value → Prop where
  | accepted {out out' : Value} (same : out.sameValue out' = true) :
      SameResult like levels path left right (.ok out) (.ok out')
  | failed {error error' : Error} (same : SameError like levels path left right error error') :
      SameResult like levels path left right (.error error) (.error error')

variable {levels : Location → Schema (Resolver σ) → Prop} {path : String}
  {left right document document' value value' : Value} {state state' final final' : σ}
  {asked asked' : Except String Value × σ}

/-- Like answers about same values both pass or both fail. -/
theorem Likeness.Answers.error? (answers : like.Answers asked asked') (same : value.Same value')
    (place : String) :
    Option.Rel (SameError like levels path left right) (Call.error? ⟨place, value, asked.1⟩)
      (Call.error? ⟨place, value', asked'.1⟩) := by
  cases answers with
  | failed reasons => exact .some (.resolverFailed reasons)
  | answered sameAnswer =>
      have kept := sameAnswer.sameValue_congr same
      simp only [Call.error?, kept]
      split
      · exact .none
      · exact .some .resolverAltered

theorem Likeness.Answers.states (answers : like.Answers asked asked') :
    like.states asked.2 asked'.2 := by
  cases answers with
  | failed _ states => exact states
  | answered _ states => exact states

theorem KeyPath.render_member (path : String) (place : Location) (name : String) :
    render path (place ++ [.member name]) = join (render path place) name := by
  simp [render, extend]

/-- Steps that are the same one by one, from like states on, end alike. -/
theorem Plan.Runs.sameResult {steps steps' : List (Step (Resolver σ))}
    (each : SameSteps levels left right steps steps')
    (respects : ∀ resolver ∈ consulted steps, resolver.Respects like)
    (same : document.Same document') (states : like.states state state')
    {calls calls' : List Call} {result result' : Except Error Value}
    (runs : Runs path steps document state calls result final)
    (runs' : Runs path steps' document' state' calls' result' final') :
    SameResult like levels path left right result result' ∧ like.states final final' := by
  induction each generalizing document document' state state' calls calls' result result' with
  | nil =>
      cases runs
      cases runs'
      exact ⟨.accepted same.sameValue, states⟩
  | @cons step step' rest rest' here later ih =>
      cases here with
      | wrongKind sameActual =>
          cases runs
          cases runs'
          exact ⟨.failed (.wrongKind sameActual.sameValue), states⟩
      | missing =>
          cases runs
          cases runs'
          exact ⟨.failed .missing, states⟩
      | @unexpected place first second strays =>
          cases runs
          cases runs'
          refine ⟨.failed ?_, states⟩
          rw [KeyPath.render_member, KeyPath.render_member]
          exact .unexpected strays
      | @consult location resolver value value' stored sameAsked =>
          obtain ⟨respectful, others⟩ := List.forall_mem_cons.mp respects
          have answers := respectful (KeyPath.render path location) value value' state state'
            sameAsked states
          have outcome : Option.Rel (SameError like levels path left right) _ _ :=
            answers.error? sameAsked (KeyPath.render path location)
          have statesNext := answers.states
          -- Both calls pass or both fail, so the runs take the same branch.
          cases runs with
          | failed asked faulty =>
              cases runs' with
              | failed asked' faulty' =>
                  rw [asked, asked'] at outcome statesNext
                  rw [faulty, faulty'] at outcome
                  cases outcome with
                  | some sameError => exact ⟨.failed sameError, statesNext⟩
              | answered asked' kept' later' =>
                  rw [asked, asked', faulty, Call.error?_eq_none_iff.mpr ⟨_, rfl, kept'⟩] at outcome
                  cases outcome
          | answered asked kept later =>
              cases runs' with
              | failed asked' faulty' =>
                  rw [asked, asked', faulty', Call.error?_eq_none_iff.mpr ⟨_, rfl, kept⟩] at outcome
                  cases outcome
              | answered asked' kept' later' =>
                  rw [asked, asked'] at answers
                  cases answers with
                  | answered sameAnswer statesNext =>
                      refine ih others ?_ statesNext later later'
                      split
                      · exact same.store sameAnswer location
                      · exact same

/-- What resolvers do not tell apart, a validation does not either. -/
theorem validate_sameValue (like : Likeness σ) (schema : Schema.Distinct (Resolver σ))
    (respects : ∀ resolver ∈ schema.resolvers, resolver.Respects like) (options : Options)
    (left right : Value.Distinct) (sameValue : left.val.sameValue right = true)
    (state state' : σ) (states : like.states state state') :
    let ended := (validate schema options left).run state
    let ended' := (validate schema options right).run state'
    SameResult like schema.Level options.path left right ended.1 ended'.1 ∧
      like.states ended.2 ended'.2 := by
  obtain ⟨left, leftUnique⟩ := left
  obtain ⟨right, rightUnique⟩ := right
  intro ended ended'
  have same : left.Same right := ⟨leftUnique, rightUnique, sameValue⟩
  cases empty : schema.emptyObject? options.path with
  | some path =>
      have onLeft : ended = (.error (.malformed path .emptyObject), state) :=
        (Validates.malformed empty).run_validate schema.unique
      have onRight : ended' = (.error (.malformed path .emptyObject), state') :=
        (Validates.malformed empty).run_validate schema.unique
      rw [onLeft, onRight]
      exact ⟨.failed .malformed, states⟩
  | none =>
      cases Value.sameValue_iff.mp sameValue with
      | @object members others =>
          have each := schema.sameSteps options.strict same
          have respectful : ∀ resolver ∈
              Plan.consulted (Plan.object options.strict schema.toSchema members),
                resolver.Respects like := by
            intro resolver listed
            exact respects resolver (schema.consulted_object options.strict members listed)
          obtain ⟨calls, result, final, runs⟩ := Plan.exists_runs options.path
            (Plan.object options.strict schema members) (.object members) state
          obtain ⟨calls', result', final', runs'⟩ := Plan.exists_runs options.path
            (Plan.object options.strict schema others) (.object others) state'
          have onLeft : ended = (result, final) :=
            (Validates.performed empty runs).run_validate schema.unique
          have onRight : ended' = (result', final') :=
            (Validates.performed empty runs').run_validate schema.unique
          rw [onLeft, onRight]
          exact runs.sameResult each respectful same states runs'
      | null | bool | number | string | array =>
          have onLeft : ended =
              (.error (.rejected (.wrongKind options.documentPlace "object" _)), state) :=
            (Validates.notObject empty (by simp)).run_validate schema.unique
          have onRight : ended' =
              (.error (.rejected (.wrongKind options.documentPlace "object" _)), state') :=
            (Validates.notObject empty (by simp)).run_validate schema.unique
          rw [onLeft, onRight]
          exact ⟨.failed (.wrongKind sameValue), states⟩

/-- Counts its calls. It takes no numbers, and tells how the number was written. -/
def Resolver.numberless : Resolver Nat := fun value _ count =>
  match value with
  | .number number => (.error number.write, count + 1)
  | other => (.ok other, count + 1)

/-- The same counts, and any reasons. -/
def Likeness.counts : Likeness Nat :=
  ⟨fun count count' => count = count', fun _ _ => True⟩

theorem Resolver.respects_numberless : Resolver.numberless.Respects .counts := by
  intro path value value' state state' same states
  have next : state + 1 = state' + 1 := congrArg (· + 1) states
  cases Value.sameValue_iff.mp same.sameValue with
  | number => exact .failed trivial next
  | null | bool | string | array | object => exact .answered same next

def Schema.ledger : Schema (Resolver Nat) :=
  ⟨[("total", .number), ("note", .custom .numberless),
    ("lines", .array (.object ⟨[("sum", .number)]⟩))]⟩

def ledger : Value :=
  .object [("total", .number (.integer 5)), ("note", .string "paid"),
    ("lines", .array [.object [("sum", .number (.integer 5)), ("tax", .null), ("fee", .null)]])]

def turnedLedger : Value :=
  .object [
    ("lines", .array [.object [("fee", .null), ("tax", .null),
      ("sum", .number (.float (.ofInt 5)))]]),
    ("note", .string "paid"), ("total", .number (.float (.ofInt 5)))]

/-- Of the two undeclared names of the line, each order has another one first. -/
theorem validate_sameValue_ledger :
    let options : Options := ⟨true, some "body"⟩
    let ended := (validate Schema.ledger options ledger).run 0
    let ended' := (validate Schema.ledger options turnedLedger).run 0
    ledger.sameValue turnedLedger = true ∧
      (∀ resolver ∈ Schema.ledger.resolvers, resolver.Respects .counts) ∧
      ended = (.error (.rejected (.unexpected "body.lines[0].tax" "tax")), 1) ∧
      ended' = (.error (.rejected (.unexpected "body.lines[0].fee" "fee")), 1) ∧
      SameResult .counts Schema.ledger.Level "body" ledger turnedLedger ended.1 ended'.1 ∧
      Likeness.counts.states ended.2 ended'.2 := by
  intro options ended ended'
  have unique : Schema.ledger.UniqueNames := by decide
  have respects : ∀ resolver ∈ Schema.ledger.resolvers, resolver.Respects .counts := by
    intro resolver listed
    cases List.mem_singleton.mp listed
    exact Resolver.respects_numberless
  have leftUnique : ledger.UniqueNames := by decide
  have rightUnique : turnedLedger.UniqueNames := by decide
  have same : ledger.sameValue turnedLedger = true := by decide +kernel
  have alike := validate_sameValue .counts ⟨Schema.ledger, unique⟩ respects options
    ⟨ledger, leftUnique⟩ ⟨turnedLedger, rightUnique⟩ same 0 0 rfl
  exact ⟨same, respects, rfl, rfl, alike⟩

end DocShape
