import DocShape.Proofs.Declared
import DocShape.Proofs.Validation

/-! What a rejection says of the document. It names a place, what is declared
there and what the document has there instead; resolvers that ran before cannot
blur it, since a plan is made from the document as it was given. -/

set_option autoImplicit false

namespace DocShape

open Json (Value)

variable {σ ρ : Type}

/-- The value is of the kind, as far as shows without looking into it. -/
def ItemKind.Fits : ItemKind ρ → Value → Prop
  | .scalar kind, value => kind.admits value = true
  | .object _, value => ∃ members, value = .object members
  | .custom _, _ => True

def FieldKind.Fits : FieldKind ρ → Value → Prop
  | .item kind, value => kind.Fits value
  | .array _, value => ∃ items, value = .array items

/-- What a document has at a location, against what a field declares there. -/
inductive Contradicts (strict : Bool) (field : Field ρ) (document : Value) :
    Location → Refusal → Prop where
  | wrongKind {location : Location} {declared : Field ρ} {actual : Value}
      (place : field.At location declared) (found : document.at? location = some actual)
      (notNull : actual ≠ .null) (other : ¬ declared.kind.Fits actual) :
      Contradicts strict field document location (.wrongKind declared.kind.name actual)
  | null {location : Location} {declared : Field ρ} (place : field.At location declared)
      (required : declared.optional = false) (found : document.at? location = some .null) :
      Contradicts strict field document location .missing
  | lacking {above : Location} {name : String} {declared : Field ρ}
      {members : List (String × Value)} (place : field.At (above ++ [.member name]) declared)
      (required : declared.optional = false) (found : document.at? above = some (.object members))
      (lacks : name ∉ Entries.names members) :
      Contradicts strict field document (above ++ [.member name]) .missing
  | unexpected {above : Location} {name : String} {level : Schema ρ} {optional : Bool}
      {members : List (String × Value)} {before after : List String} (isStrict : strict = true)
      (place : field.At above ⟨.item (.object level), optional⟩)
      (found : document.at? above = some (.object members))
      (split : Entries.names members = before ++ name :: after)
      (known : ∀ key ∈ before, key ∈ Entries.names level.fields)
      (stray : name ∉ Entries.names level.fields) :
      Contradicts strict field document (above ++ [.member name]) (.unexpected name)

theorem Contradicts.below {strict : Bool} {outer inner : Field ρ} {document value : Value}
    {segment : Segment} {location : Location} {refusal : Refusal}
    (inside : ∀ place declared, inner.At place declared → outer.At (segment :: place) declared)
    (found : document.inside? segment = some value)
    (contradicts : Contradicts strict inner value location refusal) :
    Contradicts strict outer document (segment :: location) refusal := by
  have deeper (place : Location) : document.at? (segment :: place) = value.at? place := by
    simp [Value.at?, found]
  cases contradicts with
  | wrongKind place held notNull other =>
      exact .wrongKind (inside _ _ place) ((deeper _).trans held) notNull other
  | null place required held => exact .null (inside _ _ place) required ((deeper _).trans held)
  | @lacking above name _ _ place required held lacks =>
      have missing : Contradicts strict outer document ((segment :: above) ++ [.member name])
          .missing :=
        .lacking (inside _ _ place) required ((deeper above).trans held) lacks
      exact missing
  | @unexpected above name _ _ _ _ _ isStrict place held split known stray =>
      have refused : Contradicts strict outer document ((segment :: above) ++ [.member name])
          (.unexpected name) :=
        .unexpected isStrict (inside _ _ place) ((deeper above).trans held) split known stray
      exact refused

/-! ## The first refusal of a plan -/

namespace Plan

private theorem firstRefusal?_append (steps later : List (Step ρ)) :
    firstRefusal? (steps ++ later) = (firstRefusal? steps).or (firstRefusal? later) :=
  List.findSome?_append

private theorem firstRefusal?_below (segment : Segment) (steps : List (Step ρ)) :
    firstRefusal? (steps.map (Step.below segment)) =
      (firstRefusal? steps).map fun found => (segment :: found.1, found.2) := by
  induction steps with
  | nil => rfl
  | cons step rest ih =>
      obtain ⟨location, action⟩ := step
      cases action with
      | refuse refusal => rfl
      | consult resolver value stored => exact ih

/-! ## It contradicts what is declared -/

/-- What the steps refuse first contradicts what the field declares. -/
def Blames (strict : Bool) (owner : Field ρ) (document : Value) (steps : List (Step ρ)) : Prop :=
  ∀ location refusal, firstRefusal? steps = some (location, refusal) →
    Contradicts strict owner document location refusal

variable {strict : Bool} {outer inner owner : Field ρ} {document value : Value}
  {steps later : List (Step ρ)}

private theorem blames_nil : Blames strict owner document ([] : List (Step ρ)) := by
  intro location refusal found
  cases found

private theorem blames_refuse {location : Location} {refusal : Refusal}
    (contradicts : Contradicts strict owner document location refusal) :
    Blames strict owner document [(⟨location, .refuse refusal⟩ : Step ρ)] := by
  intro place other found
  cases found
  exact contradicts

private theorem blames_wrongKind {kind : FieldKind ρ} {optional : Bool} (held : value ≠ .null)
    (other : ¬ kind.Fits value) :
    Blames strict ⟨kind, optional⟩ value [(Step.refuse (.wrongKind kind.name value) : Step ρ)] := by
  have refused : Contradicts strict ⟨kind, optional⟩ value [] (.wrongKind kind.name value) :=
    .wrongKind .here rfl held other
  exact blames_refuse refused

theorem Blames.append (blames : Blames strict owner document steps)
    (others : Blames strict owner document later) :
    Blames strict owner document (steps ++ later) := by
  intro location refusal found
  rw [firstRefusal?_append, Option.or_eq_some_iff] at found
  rcases found with here | ⟨-, there⟩
  · exact blames location refusal here
  · exact others location refusal there

theorem Blames.below {segment : Segment}
    (inside : ∀ place declared, inner.At place declared → outer.At (segment :: place) declared)
    (found : document.inside? segment = some value) (blames : Blames strict inner value steps) :
    Blames strict outer document (steps.map (Step.below segment)) := by
  intro location refusal first
  rw [firstRefusal?_below, Option.map_eq_some_iff] at first
  obtain ⟨⟨deeper, refused⟩, here, same⟩ := first
  cases same
  exact (blames deeper refused here).below inside found

private theorem blames_items {plan : Value → List (Step ρ)} {element : ItemKind ρ} {optional : Bool}
    (each : ∀ value, value ≠ .null →
      Blames strict (Field.required (.item element)) value (plan value))
    {start : Nat} {values : List Value}
    (inside : ∀ offset, document.inside? (.item (start + offset)) = values[offset]?) :
    Blames strict ⟨.array element, optional⟩ document (items plan start values) := by
  induction values generalizing start with
  | nil => exact blames_nil
  | cons value rest ih =>
      rw [items]
      apply Blames.append
      · apply Blames.below (fun _ _ => Field.At.item) (inside 0)
        split
        · rename_i isNull
          rw [Json.Value.isNull_iff] at isNull
          subst isNull
          exact blames_refuse (.null .here rfl rfl)
        · rename_i held
          exact each value (mt Json.Value.isNull_iff.mpr held)
      · apply ih
        intro offset
        have later := inside (offset + 1)
        rwa [List.getElem?_cons_succ, ← Nat.add_assoc, Nat.add_right_comm] at later

private theorem blames_present {plan : Value → List (Step ρ)} {declared : List (String × Field ρ)}
    {name : String} {kind : FieldKind ρ} {optional wasOptional : Bool}
    (listed : (name, ⟨kind, optional⟩) ∈ declared) {members : List (String × Value)}
    (each : ∀ value, value ≠ .null → Blames strict ⟨kind, optional⟩ value (plan value)) :
    Blames strict ⟨.item (.object ⟨declared⟩), wasOptional⟩ (.object members)
      ((present plan optional (Entries.get? name members)).map (Step.below (.member name))) := by
  have inside (place : Location) (wanted : Field ρ)
      (deeper : Field.At ⟨kind, optional⟩ place wanted) :
      Field.At ⟨.item (.object ⟨declared⟩), wasOptional⟩ (.member name :: place) wanted :=
    .member listed deeper
  rcases absent_or_present (Entries.get? name members) with absent | ⟨value, found, held⟩
  · rw [present_absent absent]
    cases optional with
    | true => exact blames_nil
    | false =>
        rcases absent with missing | isNull
        · have lacks : name ∉ Entries.names members := Entries.get?_eq_none_iff.mp missing
          have refused : Contradicts strict ⟨.item (.object ⟨declared⟩), wasOptional⟩
              (.object members) ([] ++ [.member name]) .missing :=
            .lacking (inside [] _ .here) rfl rfl lacks
          exact blames_refuse refused
        · exact Blames.below inside isNull (blames_refuse (.null .here rfl rfl))
  · rw [found, present_some held]
    exact (each value held).below inside found

private theorem firstRefusal?_undeclared (declared : List (String × Field ρ))
    (members : List (String × Value)) :
    firstRefusal? (undeclared declared members) =
      (Walk.undeclared? declared members).map fun name => ([.member name], .unexpected name) := by
  rw [Walk.undeclared?, ← List.head?_filter, undeclared]
  cases (Entries.names members).filter fun name => !Entries.contains name declared with
  | nil => rfl
  | cons name names => rfl

private theorem blames_undeclared (declared : List (String × Field ρ)) (optional : Bool)
    (members : List (String × Value)) :
    Blames true ⟨.item (.object ⟨declared⟩), optional⟩ (.object members)
      (undeclared declared members) := by
  intro location refusal first
  rw [firstRefusal?_undeclared, Option.map_eq_some_iff] at first
  obtain ⟨name, found, same⟩ := first
  cases same
  obtain ⟨fresh, before, after, split, earlier⟩ := List.find?_eq_some_iff_append.mp found
  have stray : name ∉ Entries.names declared := by
    rw [← Entries.contains_iff]
    simpa using fresh
  have known : ∀ key ∈ before, key ∈ Entries.names declared := by
    intro key listed
    rw [← Entries.contains_iff]
    simpa using earlier key listed
  have refused : Contradicts true ⟨.item (.object ⟨declared⟩), optional⟩ (.object members)
      ([] ++ [.member name]) (.unexpected name) :=
    .unexpected rfl .here rfl split known stray
  exact refused

private theorem blames_object {declared : List (String × Field ρ)} {optional : Bool}
    {members : List (String × Value)}
    (others : Blames strict ⟨.item (.object ⟨declared⟩), optional⟩ (.object members)
      (fields strict declared members)) :
    Blames strict ⟨.item (.object ⟨declared⟩), optional⟩ (.object members)
      (object strict ⟨declared⟩ members) := by
  rw [object]
  apply Blames.append _ others
  split
  · rename_i isStrict
    subst isStrict
    exact blames_undeclared declared optional members
  · exact blames_nil

mutual

private theorem blames_item (strict : Bool) : (kind : ItemKind ρ) →
    ∀ optional value, value ≠ .null →
    Blames strict ⟨.item kind, optional⟩ value (item strict kind value)
  | .scalar kind, optional, value, held => by
      rw [item]
      split
      · exact blames_nil
      · rename_i refused
        exact blames_wrongKind held refused
  | .object ⟨declared⟩, optional, value, held => by
      cases value with
      | object members =>
          exact blames_object
            (blames_fields strict declared declared (List.Subset.refl _) optional members)
      | null | bool | number | string | array =>
          exact blames_wrongKind held (by simp [FieldKind.Fits, ItemKind.Fits])
  | .custom resolver, optional, value, held => by
      intro location refusal found
      cases found

private theorem blames_field (strict : Bool) : (kind : FieldKind ρ) →
    ∀ optional value, value ≠ .null →
    Blames strict ⟨kind, optional⟩ value (field strict kind value)
  | .item (.custom resolver), optional, value, held => by
      intro location refusal found
      cases found
  | .item (.scalar kind), optional, value, held =>
      blames_item strict (.scalar kind) optional value held
  | .item (.object schema), optional, value, held =>
      blames_item strict (.object schema) optional value held
  | .array element, optional, value, held => by
      cases value with
      | array values =>
          apply blames_items (blames_item strict element false)
          simp [Value.inside?]
      | null | bool | number | string | object =>
          exact blames_wrongKind held (by simp [FieldKind.Fits])

private theorem blames_fields (strict : Bool) (all : List (String × Field ρ)) :
    (declared : List (String × Field ρ)) → declared ⊆ all → ∀ optional members,
    Blames strict ⟨.item (.object ⟨all⟩), optional⟩ (.object members)
      (fields strict declared members)
  | [], _, optional, members => by
      rw [fields]
      exact blames_nil
  | (name, ⟨kind, wasOptional⟩) :: rest, within, optional, members => by
      obtain ⟨listed, later⟩ := List.cons_subset.mp within
      rw [fields]
      exact (blames_present listed (blames_field strict kind wasOptional)).append
        (blames_fields strict all rest later optional members)

end

end Plan

theorem Schema.contradicts_of_rejected {schema : Schema (Resolver σ)} {strict : Bool}
    {path : String} {members : List (String × Value)} {state final : σ} {calls : List Call}
    {violation : Violation}
    (runs : Plan.Runs path (Plan.object strict schema members) (.object members) state calls
      (.error (.rejected violation)) final) :
    ∃ location refusal, violation = refusal.violation (KeyPath.render path location) ∧
      Contradicts strict (Field.object schema) (.object members) location refusal := by
  obtain ⟨declared⟩ := schema
  obtain ⟨location, refusal, first, same⟩ := runs.firstRefusal?_of_rejected
  have blames := Plan.blames_object
    (Plan.blames_fields strict declared declared (List.Subset.refl _) false members)
  exact ⟨location, refusal, same, blames location refusal first⟩

/-- A rejected document is no object, or it contradicts the schema at the place that
is reported: there it has, as it was given, what the rejection says, and this is
not what the schema declares there. -/
theorem validate_rejects_contradiction (schema : Schema.Distinct (Resolver σ))
    (options : Options) (document : Value) (state final : σ) (violation : Violation)
    (rejected : (validate schema options document).run state =
      (.error (.rejected violation), final)) :
    ((∀ members, document ≠ .object members) ∧
        violation = .wrongKind options.documentPlace "object" document) ∨
      ∃ location refusal, violation = refusal.violation (KeyPath.render options.path location) ∧
        Contradicts options.strict (Field.object schema.toSchema) document location refusal := by
  obtain ⟨calls, validates⟩ := exists_validates_of_run schema.unique rejected
  cases validates with
  | notObject _ other => exact .inl ⟨other, rfl⟩
  | performed _ runs => exact .inr (Schema.contradicts_of_rejected runs)

def Resolver.counting : Resolver Nat := fun value _ count =>
  (.ok value, count + 1)

def Schema.survey : Schema (Resolver Nat) :=
  ⟨[("marks", .array (.custom .counting)),
    ("answers", .array (.object ⟨[("text", .string), ("grade", .withOptional true .number)]⟩))]⟩

/-- The grade of the second answer is reported, which comes after a mark that a
resolver was asked about. -/
theorem validate_rejects_contradiction_survey :
    let document : Value := .object [
      ("answers", .array [.object [("text", .string "yes")],
        .object [("grade", .string "high"), ("text", .string "no")]]),
      ("marks", .array [.bool true])]
    let violation : Violation := .wrongKind "form.answers[1].grade" "number" (.string "high")
    Schema.survey.UniqueNames ∧
      (validate Schema.survey ⟨true, some "form"⟩ document).run 0 =
        (.error (.rejected violation), 1) ∧
      ∃ location refusal, violation = refusal.violation (KeyPath.render "form" location) ∧
        Contradicts true (Field.object Schema.survey) document location refusal := by
  intro document violation
  have unique : Schema.survey.UniqueNames := by decide
  have rejected : (validate Schema.survey ⟨true, some "form"⟩ document).run 0 =
      (.error (.rejected violation), 1) := rfl
  rcases validate_rejects_contradiction ⟨Schema.survey, unique⟩ ⟨true, some "form"⟩ document 0 1
    violation rejected with ⟨other, -⟩ | contradicts
  · exact absurd rfl (other _)
  · exact ⟨unique, rejected, contradicts⟩

end DocShape
