import DocShape.Proofs.Calls
import DocShape.Proofs.Malformed

/-! How a validation ends: at a malformed schema or a document that is no object
before any call, else as its plan runs. -/

set_option autoImplicit false

namespace DocShape

open Json (Value)

variable {σ : Type}

/-- The place of a document, named even where no root key is set. -/
def Options.documentPlace (options : Options) : String :=
  if options.path.isEmpty then KeyPath.root else options.path

inductive Validates (schema : Schema (Resolver σ)) (options : Options) :
    Value → σ → List Call → Except Error Value → σ → Prop where
  | malformed {document : Value} {state : σ} {path : String}
      (empty : schema.emptyObject? options.path = some path) :
      Validates schema options document state [] (.error (.malformed path .emptyObject)) state
  | notObject {document : Value} {state : σ}
      (wellFormed : schema.emptyObject? options.path = none)
      (other : ∀ members, document ≠ .object members) :
      Validates schema options document state []
        (.error (.rejected (.wrongKind options.documentPlace "object" document))) state
  | performed {members : List (String × Value)} {state final : σ} {calls : List Call}
      {result : Except Error Value}
      (wellFormed : schema.emptyObject? options.path = none)
      (runs : Plan.Runs options.path (Plan.object options.strict schema members)
        (.object members) state calls result final) :
      Validates schema options (.object members) state calls result final

theorem exists_validates (schema : Schema (Resolver σ)) (options : Options) (document : Value)
    (state : σ) :
    ∃ calls result final, Validates schema options document state calls result final := by
  cases empty : schema.emptyObject? options.path with
  | some path => exact ⟨_, _, _, .malformed empty⟩
  | none =>
      cases document with
      | object members =>
          obtain ⟨calls, result, final, runs⟩ := Plan.exists_runs options.path
            (Plan.object options.strict schema members) (.object members) state
          exact ⟨_, _, _, .performed empty runs⟩
      | null | bool | number | string | array =>
          exact ⟨_, _, _, .notObject empty (by simp)⟩

theorem walkDocument_other (schema : Schema (Resolver σ)) (options : Options) {document : Value}
    (other : ∀ members, document ≠ .object members) :
    walkDocument schema options document =
      Walk.reject (.wrongKind options.documentPlace "object" document) := by
  cases document with
  | object members => exact absurd rfl (other members)
  | null | bool | number | string | array => rfl

theorem validate_malformed {schema : Schema (Resolver σ)} {options : Options} {path : String}
    (empty : schema.emptyObject? options.path = some path) (document : Value) :
    validate schema options document = pure (.error (.malformed path .emptyObject)) := by
  simp only [validate, empty]

theorem validate_wellFormed {schema : Schema (Resolver σ)} {options : Options}
    (wellFormed : schema.emptyObject? options.path = none) (document : Value) :
    validate schema options document = (walkDocument schema options document).run := by
  simp only [validate, wellFormed]

variable {schema : Schema (Resolver σ)} {options : Options} {document : Value} {state final : σ}
  {calls : List Call} {result : Except Error Value}

theorem Validates.run_validate (unique : schema.UniqueNames)
    (validates : Validates schema options document state calls result final) :
    (validate schema options document).run state = (result, final) := by
  cases validates with
  | malformed empty => rw [validate_malformed empty]; rfl
  | notObject wellFormed other =>
      rw [validate_wellFormed wellFormed, walkDocument_other schema options other]
      rfl
  | performed wellFormed runs =>
      rw [validate_wellFormed wellFormed, walkDocument_object unique]
      exact runs.run_perform

theorem Validates.run_logged (unique : schema.UniqueNames)
    (validates : Validates schema options document state calls result final) :
    (validate (schema.map Resolver.logged) options document).run (state, []) =
      (result, (final, calls)) := by
  have sameSearch := schema.emptyObject?_map Resolver.logged options.path
  cases validates with
  | malformed empty =>
      rw [validate_malformed (sameSearch.trans empty)]
      rfl
  | notObject wellFormed other =>
      rw [validate_wellFormed (sameSearch.trans wellFormed), walkDocument_other _ options other]
      rfl
  | performed wellFormed runs =>
      rw [validate_wellFormed (sameSearch.trans wellFormed),
        walkDocument_object (Schema.uniqueNames_map Resolver.logged unique), Plan.object_map]
      exact runs.run_logged []

theorem exists_validates_of_run (unique : schema.UniqueNames)
    (ended : (validate schema options document).run state = (result, final)) :
    ∃ calls, Validates schema options document state calls result final := by
  obtain ⟨calls, outcome, reached, validates⟩ := exists_validates schema options document state
  rw [validates.run_validate unique] at ended
  obtain ⟨rfl, rfl⟩ := Prod.mk.inj ended
  exact ⟨calls, validates⟩

end DocShape
