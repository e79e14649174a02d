import DocShape.Proofs.ResolverCalls
import DocShape.Proofs.SameValue

/-! What an accepted document becomes. The answers about array items take their
places, and nothing else is touched, whatever the resolvers do with the state
that they share. -/

set_option autoImplicit false

namespace DocShape

open Json (Value)

variable {σ : Type}

structure Answered where
  custom : Custom
  answer : Value

namespace Answered

def call (path : String) (answered : Answered) : Call :=
  ⟨KeyPath.render path answered.custom.location, answered.custom.value, .ok answered.answer⟩

/-- What lies in an accepted document at the place of the value. -/
def kept (answered : Answered) : Value :=
  if answered.custom.element then answered.answer else answered.custom.value

/-- Stores the answers about array items, and drops those about fields. -/
def storeAll : List Answered → Value → Value
  | [], document => document
  | one :: rest, document =>
      storeAll rest
        (if one.custom.element then document.store one.custom.location one.answer else document)

variable {answered : List Answered} {document : Value}

theorem surface_at?_storeAll {location : Location}
    (outside : ∀ one ∈ answered, one.custom.element = true →
      ¬ one.custom.location <+: location) (document : Value) :
    ((storeAll answered document).at? location).map Value.surface =
      (document.at? location).map Value.surface := by
  induction answered generalizing document with
  | nil => rfl
  | cons one rest ih =>
      obtain ⟨here, others⟩ := List.forall_mem_cons.mp outside
      rw [storeAll, ih others]
      cases element : one.custom.element with
      | false => rfl
      | true => exact Value.surface_at?_store (here element) document one.answer

theorem at?_storeAll_of_apart {location : Location}
    (apart : ∀ one ∈ answered, one.custom.element = true →
      one.custom.location.Apart location) (document : Value) :
    (storeAll answered document).at? location = document.at? location := by
  induction answered generalizing document with
  | nil => rfl
  | cons one rest ih =>
      obtain ⟨here, others⟩ := List.forall_mem_cons.mp apart
      rw [storeAll, ih others]
      cases element : one.custom.element with
      | false => rfl
      | true => exact Value.at?_store_of_apart (here element) document one.answer

theorem storeAll_of_fields (fieldsOnly : ∀ one ∈ answered, one.custom.element = false)
    (document : Value) : storeAll answered document = document := by
  induction answered with
  | nil => rfl
  | cons one rest ih =>
      obtain ⟨here, others⟩ := List.forall_mem_cons.mp fieldsOnly
      simp only [storeAll, here, Bool.false_eq_true, ↓reduceIte, ih others]

/-- No answer is stored over another one, or over a field. -/
theorem at?_storeAll (separate : Customs.Separate (answered.map Answered.custom))
    (held : Customs.Held document (answered.map Answered.custom)) :
    ∀ one ∈ answered, (storeAll answered document).at? one.custom.location = some one.kept := by
  induction answered generalizing document with
  | nil => simp
  | cons first rest ih =>
      obtain ⟨apart, separate⟩ := List.pairwise_cons.mp separate
      obtain ⟨⟨present, -⟩, held⟩ := List.forall_mem_cons.mp held
      intro one listed
      rw [storeAll]
      rcases List.mem_cons.mp listed with rfl | listed
      · -- Nothing is stored at this place again.
        have later : ∀ other ∈ rest, other.custom.element = true →
            other.custom.location.Apart one.custom.location := by
          intro other listed _
          exact (apart other.custom (List.mem_map_of_mem listed)).symm
        rw [at?_storeAll_of_apart later, kept]
        cases one.custom.element with
        | false => exact present
        | true => exact Value.at?_store_self present one.answer
      · -- The values not yet stored to are still those of the document.
        refine ih separate ?_ one listed
        intro custom listed
        obtain ⟨found, notNull⟩ := held custom listed
        refine ⟨?_, notNull⟩
        split
        · rw [Value.at?_store_of_apart (apart custom listed), found]
        · exact found

theorem sameValue_storeAll {original : Value} (same : document.sameValue original = true)
    (held : Customs.Held original (answered.map Answered.custom))
    (agree : ∀ one ∈ answered, one.answer.sameValue one.custom.value = true) :
    (storeAll answered document).sameValue original = true := by
  induction answered generalizing document with
  | nil => exact same
  | cons one rest ih =>
      obtain ⟨⟨present, -⟩, held⟩ := List.forall_mem_cons.mp held
      obtain ⟨agrees, others⟩ := List.forall_mem_cons.mp agree
      refine ih ?_ held others
      split
      · exact Value.sameValue_store same present agrees
      · exact same

end Answered

theorem Plan.Runs.exists_answered {path : String} {steps : List (Step (Resolver σ))}
    {document out : Value} {state final : σ} {calls : List Call}
    (runs : Plan.Runs path steps document state calls (.ok out) final) :
    ∃ answered : List Answered,
      answered.map Answered.custom = steps.filterMap Step.custom? ∧
      answered.map (Answered.call path) = calls ∧
      (∀ one ∈ answered, one.answer.sameValue one.custom.value = true) ∧
      out = Answered.storeAll answered document := by
  generalize ended : Except.ok out = result at runs
  induction runs with
  | done =>
      cases ended
      exact ⟨[], rfl, rfl, by simp, rfl⟩
  | refused => cases ended
  | failed => cases ended
  | @answered location _ value stored _ _ answer _ _ _ _ _ _ same _ ih =>
      obtain ⟨others, customs, calls, agree, stores⟩ := ih ended
      refine ⟨⟨⟨location, value, stored⟩, answer⟩ :: others, ?_, ?_, ?_, stores⟩
      · exact congrArg (List.cons _) customs
      · exact congrArg (List.cons _) calls
      · exact List.forall_mem_cons.mpr ⟨same, agree⟩

theorem Validates.exists_answered {schema : Schema (Resolver σ)} {options : Options}
    {document out : Value} {state final : σ} {calls : List Call}
    (validates : Validates schema options document state calls (.ok out) final) :
    ∃ answered : List Answered,
      answered.map Answered.custom = schema.customs document ∧
      answered.map (Answered.call options.path) = calls ∧
      (∀ one ∈ answered, one.answer.sameValue one.custom.value = true) ∧
      out = Answered.storeAll answered document := by
  cases validates with
  | performed _ runs =>
      rw [← Customs.object_of_plan options.strict]
      exact runs.exists_answered

/-- An accepted document differs from the given one only where the items of
arrays of custom kind lie. Each of these is what its resolver returned; what
lies beside them is equal, and what lies around them has the same surface. -/
theorem validate_changes (schema : Schema.Distinct (Resolver σ)) (options : Options)
    (document out : Value) (state final : σ)
    (accepted : (validate schema options document).run state = (.ok out, final)) :
    ∃ answered : List Answered,
      answered.map Answered.custom = schema.customs document ∧
      (validate (schema.map Resolver.logged) options document).run (state, []) =
        (.ok out, (final, answered.map (Answered.call options.path))) ∧
      out = Answered.storeAll answered document ∧
      (∀ one ∈ answered, out.at? one.custom.location = some one.kept) ∧
      (∀ location, (∀ one ∈ answered, one.custom.element = true →
          one.custom.location.Apart location) → out.at? location = document.at? location) ∧
      (∀ location, (∀ one ∈ answered, one.custom.element = true →
          ¬ one.custom.location <+: location) →
        (out.at? location).map Value.surface = (document.at? location).map Value.surface) ∧
      (document.UniqueNames → out.sameValue document = true) ∧
      ((∀ resolver, ¬ schema.Declares (.array (.custom resolver))) → out = document) := by
  obtain ⟨calls, result, reached, validates⟩ := exists_validates schema options document state
  have ended : (Except.ok out, final) = (result, reached) :=
    accepted.symm.trans (validates.run_validate schema.unique)
  obtain ⟨rfl, rfl⟩ := Prod.mk.inj ended
  obtain ⟨answered, customs, called, agree, rfl⟩ := validates.exists_answered
  have held : Customs.Held document (answered.map Answered.custom) :=
    customs ▸ Customs.held_customs schema.toSchema document
  have separate : Customs.Separate (answered.map Answered.custom) :=
    customs ▸ Customs.separate_customs schema.unique document
  refine ⟨answered, customs, ?logged, rfl, Answered.at?_storeAll separate held, ?beside, ?around,
    ?same, ?fieldsOnly⟩
  case logged =>
    rw [called]
    exact validates.run_logged schema.unique
  case beside =>
    intro location apart
    exact Answered.at?_storeAll_of_apart apart document
  case around =>
    intro location outside
    exact Answered.surface_at?_storeAll outside document
  case same =>
    intro distinct
    exact Answered.sameValue_storeAll (Value.sameValue_self distinct) held agree
  case fieldsOnly =>
    intro noArray
    apply Answered.storeAll_of_fields
    intro one listed
    apply Customs.element_customs noArray document
    rw [← customs]
    exact List.mem_map_of_mem listed

/-- Turns the members of an object around, which makes it no other value. -/
def Resolver.reversing : Resolver Nat := fun value _ count =>
  match value with
  | .object members => (.ok (.object members.reverse), count + 1)
  | other => (.ok other, count)

def Schema.reversing : Schema (Resolver Nat) :=
  ⟨[("point", .custom .reversing), ("points", .array (.custom .reversing))]⟩

def point : Value :=
  .object [("x", .string "1"), ("y", .string "2")]

def turnedPoint : Value :=
  .object [("y", .string "2"), ("x", .string "1")]

def pointsDocument (item : Value) : Value :=
  .object [("points", .array [item]), ("point", point)]

/-- The point in the array is turned around, the one outside is not. -/
theorem validate_changes_reversing :
    Schema.reversing.UniqueNames ∧ (pointsDocument point).UniqueNames ∧
      (validate Schema.reversing {} (pointsDocument point)).run 0 =
        (.ok (pointsDocument turnedPoint), 2) ∧
      (pointsDocument turnedPoint).sameValue (pointsDocument point) = true ∧
      ∃ answered : List Answered,
        answered.map Answered.custom = Schema.reversing.customs (pointsDocument point) ∧
        pointsDocument turnedPoint = Answered.storeAll answered (pointsDocument point) ∧
        ∀ one ∈ answered,
          (pointsDocument turnedPoint).at? one.custom.location = some one.kept := by
  have unique : Schema.reversing.UniqueNames := by decide
  have distinct : (pointsDocument point).UniqueNames := by decide
  have accepted : (validate Schema.reversing {} (pointsDocument point)).run 0 =
      (.ok (pointsDocument turnedPoint), 2) := rfl
  obtain ⟨answered, customs, -, stores, places, -, -, same, -⟩ :=
    validate_changes ⟨Schema.reversing, unique⟩ {} (pointsDocument point)
      (pointsDocument turnedPoint) 0 2 accepted
  exact ⟨unique, distinct, accepted, same distinct, answered, customs, stores, places⟩

end DocShape
