import DocShape.Proofs.Contradictions

/-! Strict runs beside lenient ones. A strict plan is the lenient one with refusals of
undeclared members in between, so that a strict run goes along with the lenient
one to its end or is stopped by one of these. -/

set_option autoImplicit false

namespace DocShape

open Json (Value)

variable {σ ρ : Type}

/-! ## The lenient part of a plan -/

/-- Only strict plans have such a step. -/
def Step.isUnexpected : Step ρ → Bool
  | ⟨_, .refuse (.unexpected _)⟩ => true
  | _ => false

@[simp] theorem Step.isUnexpected_below (segment : Segment) (step : Step ρ) :
    (step.below segment).isUnexpected = step.isUnexpected := by
  obtain ⟨location, action⟩ := step
  cases action with
  | refuse refusal => cases refusal <;> rfl
  | consult resolver value stored => rfl

namespace Plan

def lenient (steps : List (Step ρ)) : List (Step ρ) :=
  steps.filter fun step => !step.isUnexpected

private theorem lenient_append (steps later : List (Step ρ)) :
    lenient (steps ++ later) = lenient steps ++ lenient later :=
  List.filter_append ..

private theorem lenient_below (segment : Segment) (steps : List (Step ρ)) :
    lenient (steps.map (Step.below segment)) = (lenient steps).map (Step.below segment) := by
  simp only [lenient, List.filter_map, Function.comp_def, Step.isUnexpected_below]

private theorem lenient_undeclared (declared : List (String × Field ρ))
    (members : List (String × Value)) :
    lenient (undeclared declared members) = [] := by
  apply List.filter_eq_nil_iff.mpr
  intro step listed
  obtain ⟨name, -, rfl⟩ := List.mem_map.mp listed
  simp [Step.isUnexpected]

private theorem lenient_items {plan other : Value → List (Step ρ)}
    (each : ∀ value, lenient (plan value) = other value) (index : Nat) (values : List Value) :
    lenient (items plan index values) = items other index values := by
  induction values generalizing index with
  | nil => rfl
  | cons value rest ih =>
      rw [items, items, lenient_append, lenient_below, ih]
      split
      · rfl
      · rw [each]

private theorem lenient_present {plan other : Value → List (Step ρ)}
    (each : ∀ value, lenient (plan value) = other value) (optional : Bool)
    (member : Option Value) :
    lenient (present plan optional member) = present other optional member := by
  rcases absent_or_present member with absent | ⟨value, rfl, held⟩
  · rw [present_absent absent, present_absent absent]
    cases optional <;> rfl
  · rw [present_some held, present_some held, each]

private theorem lenient_object {declared : List (String × Field ρ)}
    {members : List (String × Value)}
    (others : lenient (fields true declared members) = fields false declared members) :
    lenient (object true ⟨declared⟩ members) = object false ⟨declared⟩ members := by
  rw [object, object, lenient_append, others, if_pos rfl, lenient_undeclared]
  rfl

mutual

private theorem lenient_item : (kind : ItemKind ρ) → ∀ value,
    lenient (item true kind value) = item false kind value
  | .scalar kind, value => by
      rw [item, item]
      split <;> rfl
  | .object ⟨declared⟩, value => by
      cases value with
      | object members => exact lenient_object (lenient_fields declared members)
      | null | bool | number | string | array => rfl
  | .custom resolver, value => rfl

private theorem lenient_field : (kind : FieldKind ρ) → ∀ value,
    lenient (field true kind value) = field false kind value
  | .item (.custom resolver), value => rfl
  | .item (.scalar kind), value => lenient_item (.scalar kind) value
  | .item (.object schema), value => lenient_item (.object schema) value
  | .array element, value => by
      cases value with
      | array values => exact lenient_items (lenient_item element) 0 values
      | null | bool | number | string | object => rfl

private theorem lenient_fields : (declared : List (String × Field ρ)) → ∀ members,
    lenient (fields true declared members) = fields false declared members
  | [], members => by
      rw [fields, fields]
      rfl
  | (name, ⟨kind, optional⟩) :: rest, members => by
      rw [fields, fields, lenient_append, lenient_below, lenient_present (lenient_field kind),
        lenient_fields rest members]

end

/-- A run is that of the lenient part as well, or it ends at an undeclared member, where
the lenient part goes on after the same calls. -/
theorem Runs.lenient_or_unexpected {path : String} {steps : List (Step (Resolver σ))}
    {document : Value} {state final : σ} {calls : List Call} {result : Except Error Value}
    (runs : Runs path steps document state calls result final) :
    Runs path (lenient steps) document state calls result final ∨
      (∃ place name, result = .error (.rejected (.unexpected place name))) ∧
        ∃ further ended reached,
          Runs path (lenient steps) document state (calls ++ further) ended reached := by
  induction runs with
  | done => exact .inl .done
  | @refused location refusal rest document state =>
      cases refusal with
      | wrongKind expected actual => exact .inl .refused
      | missing => exact .inl .refused
      | unexpected name =>
          obtain ⟨further, ended, reached, later⟩ := exists_runs path (lenient rest) document state
          exact .inr ⟨⟨_, name, rfl⟩, further, ended, reached, later⟩
  | failed asked faulty => exact .inl (.failed asked faulty)
  | answered asked same _ ih =>
      rcases ih with along | ⟨unexpected, further, ended, reached, later⟩
      · exact .inl (.answered asked same along)
      · exact .inr ⟨unexpected, further, ended, reached, .answered asked same later⟩

end Plan

theorem Validates.lenient_or_unexpected {schema : Schema (Resolver σ)} {rootKey : Option String}
    {document : Value} {state final : σ} {calls : List Call} {result : Except Error Value}
    (validates : Validates schema ⟨true, rootKey⟩ document state calls result final) :
    Validates schema ⟨false, rootKey⟩ document state calls result final ∨
      (∃ place name, result = .error (.rejected (.unexpected place name))) ∧
        ∃ further ended reached,
          Validates schema ⟨false, rootKey⟩ document state (calls ++ further) ended reached := by
  cases validates with
  | malformed empty => exact .inl (.malformed empty)
  | notObject wellFormed other => exact .inl (.notObject wellFormed other)
  | @performed members _ _ _ _ wellFormed runs =>
      obtain ⟨declared⟩ := schema
      have alike := Plan.lenient_object (Plan.lenient_fields declared members)
      rcases runs.lenient_or_unexpected with along | ⟨unexpected, further, ended, reached, later⟩
      · rw [alike] at along
        exact .inl (.performed wellFormed along)
      · rw [alike] at later
        exact .inr ⟨unexpected, further, ended, reached, .performed wellFormed later⟩

/-! ## Undeclared members in strict plans -/

/-- Every object that lies at a level of the schema has declared members only. -/
def Schema.DeclaresMembers (schema : Schema ρ) (document : Value) : Prop :=
  ∀ place level members, schema.Level place level →
    document.at? place = some (.object members) →
    ∀ name ∈ Entries.names members, name ∈ Entries.names level.fields

theorem Json.Value.ne_null_of_at? {value : Value} {place : Location}
    {members : List (String × Value)} (found : value.at? place = some (.object members)) :
    value ≠ .null := by
  intro isNull
  subst isNull
  cases place with
  | nil => cases found
  | cons segment rest => cases found

namespace Plan

private theorem refusal_mem_item {strict : Bool} {kind : ItemKind ρ} {value : Value}
    {location : Location}
    {refusal : Refusal} (listed : ⟨location, .refuse refusal⟩ ∈ field strict (.item kind) value) :
    ⟨location, .refuse refusal⟩ ∈ item strict kind value := by
  cases kind with
  | custom resolver => simp [field, Step.consult] at listed
  | scalar kind => exact listed
  | object schema => exact listed

/-- Wherever an object of the document lies at a level, a strict plan refuses each of
its undeclared members. -/
theorem unexpected_mem {field wanted : Field ρ} {level : Schema ρ} {above : Location}
    (place : field.At above wanted) (object : wanted.kind = .item (.object level))
    {document : Value} {members : List (String × Value)} {name : String}
    (found : document.at? above = some (.object members)) (member : name ∈ Entries.names members)
    (stray : name ∉ Entries.names level.fields) :
    ⟨above ++ [.member name], .refuse (.unexpected name)⟩ ∈
      Plan.field true field.kind document := by
  induction place generalizing document with
  | here =>
      obtain ⟨declared⟩ := level
      cases found
      rw [object]
      apply List.mem_append_left
      apply List.mem_map.mpr
      refine ⟨name, List.mem_filter.mpr ⟨member, ?_⟩, rfl⟩
      rw [← Entries.contains_iff] at stray
      simpa using stray
  | @member declared key field _ optional above listed _ ih =>
      obtain ⟨kind, wasOptional⟩ := field
      simp only [Value.at?, Option.bind_eq_some_iff] at found
      obtain ⟨value, inside, found⟩ := found
      rcases Value.inside?_cases inside with ⟨others, _, rfl, same, held⟩ | ⟨_, _, _, wrong, _⟩
      · cases same
        apply List.mem_append_right
        apply mem_fields_iff.mpr
        refine ⟨key, kind, wasOptional, listed,
          ⟨above ++ [.member name], .refuse (.unexpected name)⟩, ?_, rfl⟩
        rw [held, present_some (Value.ne_null_of_at? found)]
        exact ih object found
      · cases wrong
  | @item element _ optional index above _ ih =>
      simp only [Value.at?, Option.bind_eq_some_iff] at found
      obtain ⟨value, inside, found⟩ := found
      rcases Value.inside?_cases inside with ⟨_, _, _, wrong, _⟩ | ⟨values, _, rfl, same, held⟩
      · cases wrong
      · cases same
        have notNull := mt Json.Value.isNull_iff.mp (Value.ne_null_of_at? found)
        apply mem_items_iff.mpr
        refine ⟨index, value, held, ⟨above ++ [.member name], .refuse (.unexpected name)⟩, ?_,
          by rw [Nat.zero_add]; rfl⟩
        rw [if_neg notNull]
        exact refusal_mem_item (ih object found)

end Plan

section

variable {schema : Schema (Resolver σ)} {rootKey : Option String} {document out : Value}
  {state final : σ} {calls : List Call} {result : Except Error Value}

/-- What an undeclared member is reported for is a level where it lies. -/
theorem Validates.not_declaresMembers {options : Options} {place name : String}
    (validates : Validates schema options document state calls
      (.error (.rejected (.unexpected place name))) final) :
    ¬ schema.DeclaresMembers document := by
  intro declares
  cases validates with
  | performed _ runs =>
      obtain ⟨location, refusal, same, contradicts⟩ := Schema.contradicts_of_rejected runs
      cases contradicts with
      | wrongKind => cases same
      | null => cases same
      | lacking => cases same
      | @unexpected above stray level optional members before after _ placed found split _
          undeclared =>
          have inside : schema.Level above level := Schema.level_iff.mpr ⟨optional, placed⟩
          have listed : stray ∈ Entries.names members := by
            rw [split]
            exact List.mem_append_right _ List.mem_cons_self
          exact undeclared (declares above level members inside found stray listed)

theorem Validates.declaresMembers
    (validates : Validates schema ⟨true, rootKey⟩ document state calls (.ok out) final) :
    schema.DeclaresMembers document := by
  cases validates with
  | @performed members _ _ _ _ _ runs =>
      obtain ⟨declared⟩ := schema
      intro above level inner inside found name member
      apply Classical.byContradiction
      intro stray
      obtain ⟨optional, placed⟩ := Schema.level_iff.mp inside
      have planned := Plan.unexpected_mem placed rfl found member stray
      have refusesNothing := List.findSome?_eq_none_iff.mp runs.firstRefusal?_of_ok
      cases refusesNothing _ planned

end

/-- To be strict only adds rejections of undeclared members. A strict validation
makes the calls of the lenient one and ends as it does, or it is ended by such a
rejection after the first of these calls. The latter cannot be where every object
has declared members only, and no other document is accepted strictly. -/
theorem validate_strict (schema : Schema.Distinct (Resolver σ)) (rootKey : Option String)
    (document : Value) (state : σ) :
    let strict := (validate schema ⟨true, rootKey⟩ document).run state
    let lenient := (validate schema ⟨false, rootKey⟩ document).run state
    ∃ log log',
      (validate (schema.map Resolver.logged) ⟨true, rootKey⟩ document).run (state, []) =
        (strict.1, (strict.2, log)) ∧
      (validate (schema.map Resolver.logged) ⟨false, rootKey⟩ document).run (state, []) =
        (lenient.1, (lenient.2, log')) ∧
      (strict = lenient ∧ log = log' ∨
        (∃ path name, strict.1 = .error (.rejected (.unexpected path name))) ∧ log <+: log') ∧
      (schema.DeclaresMembers document → strict = lenient ∧ log = log') ∧
      (∀ out, strict.1 = .ok out → schema.DeclaresMembers document) := by
  intro strict lenient
  obtain ⟨calls, result, final, validates⟩ :=
    exists_validates schema.toSchema ⟨true, rootKey⟩ document state
  have onStrict : strict = (result, final) := validates.run_validate schema.unique
  have strictLog := validates.run_logged schema.unique
  have accepts : ∀ out, strict.1 = .ok out → schema.DeclaresMembers document := by
    intro out accepted
    rw [onStrict] at accepted
    subst accepted
    exact validates.declaresMembers
  rcases validates.lenient_or_unexpected with
    along | ⟨⟨place, name, unexpected⟩, further, ended, reached, later⟩
  · have onLenient : lenient = (result, final) := along.run_validate schema.unique
    have lenientLog := along.run_logged schema.unique
    rw [onStrict] at accepts ⊢
    rw [onLenient]
    exact ⟨calls, calls, strictLog, lenientLog, .inl ⟨rfl, rfl⟩, fun _ => ⟨rfl, rfl⟩, accepts⟩
  · have onLenient : lenient = (ended, reached) := later.run_validate schema.unique
    have lenientLog := later.run_logged schema.unique
    subst unexpected
    rw [onStrict] at accepts ⊢
    rw [onLenient]
    exact ⟨calls, calls ++ further, strictLog, lenientLog,
      .inr ⟨⟨place, name, rfl⟩, List.prefix_append calls further⟩,
      fun declares => absurd declares validates.not_declaresMembers, accepts⟩

def Schema.ticket : Schema (Resolver Nat) :=
  ⟨[("id", .custom .counting), ("owner", .object ⟨[("name", .string)]⟩),
    ("tags", .array (.custom .counting))]⟩

/-- The age of the owner ends the strict validation before it comes to the tag. -/
theorem validate_strict_ticket :
    let document : Value := .object [("id", .string "x"),
      ("owner", .object [("name", .string "Ada"), ("age", .null)]),
      ("tags", .array [.string "new"])]
    let logged := Schema.ticket.map Resolver.logged
    Schema.ticket.UniqueNames ∧ ¬ Schema.ticket.DeclaresMembers document ∧ ∃ log log',
      (validate logged ⟨true, none⟩ document).run (0, []) =
        (.error (.rejected (.unexpected "owner.age" "age")), (1, log)) ∧
      (validate logged ⟨false, none⟩ document).run (0, []) = (.ok document, (2, log')) ∧
      log <+: log' := by
  intro document logged
  have unique : Schema.ticket.UniqueNames := by decide
  obtain ⟨log, log', strictLog, lenientLog, alike, declares, -⟩ :=
    validate_strict ⟨Schema.ticket, unique⟩ none document 0
  have onStrict : (validate Schema.ticket ⟨true, none⟩ document).run 0 =
      (.error (.rejected (.unexpected "owner.age" "age")), 1) := rfl
  have onLenient : (validate Schema.ticket ⟨false, none⟩ document).run 0 = (.ok document, 2) := rfl
  rw [onStrict, onLenient] at alike declares
  rw [onStrict] at strictLog
  rw [onLenient] at lenientLog
  have undeclared : ¬ Schema.ticket.DeclaresMembers document := by
    intro only
    cases (declares only).1
  rcases alike with ⟨same, -⟩ | ⟨-, begins⟩
  · cases same
  · exact ⟨unique, undeclared, log, log', strictLog, lenientLog, begins⟩

end DocShape
