import DocShape.Proofs.Declared
import DocShape.Proofs.Equivalence
import DocShape.Proofs.Plan

/-! The plans for a value and for one that is the same. They ask and refuse the same
at the same places, step by step, but that the undeclared members of an object
come in the order of its names. -/

set_option autoImplicit false

namespace DocShape

open Json (Value)

variable {ρ : Type}

/-- At the place, where a level is declared, both values hold an object: the first
name is a member on the left, the second one on the right, and the level
declares neither. -/
def Strays (levels : Location → Schema ρ → Prop) (left right : Value) (place : Location)
    (first second : String) : Prop :=
  ∃ level members others, levels place level ∧
    left.at? place = some (.object members) ∧ right.at? place = some (.object others) ∧
    first ∈ Entries.names members ∧ second ∈ Entries.names others ∧
    first ∉ Entries.names level.fields ∧ second ∉ Entries.names level.fields

/-- How a step for the left value compares with one for the right. -/
inductive SameStep (levels : Location → Schema ρ → Prop) (left right : Value) :
    Step ρ → Step ρ → Prop where
  | wrongKind {location : Location} {expected : String} {actual actual' : Value}
      (same : actual.Same actual') :
      SameStep levels left right ⟨location, .refuse (.wrongKind expected actual)⟩
        ⟨location, .refuse (.wrongKind expected actual')⟩
  | missing {location : Location} :
      SameStep levels left right ⟨location, .refuse .missing⟩ ⟨location, .refuse .missing⟩
  | unexpected {place : Location} {first second : String}
      (strays : Strays levels left right place first second) :
      SameStep levels left right ⟨place ++ [.member first], .refuse (.unexpected first)⟩
        ⟨place ++ [.member second], .refuse (.unexpected second)⟩
  | consult {location : Location} {resolver : ρ} {value value' : Value} {stored : Bool}
      (same : value.Same value') :
      SameStep levels left right ⟨location, .consult resolver value stored⟩
        ⟨location, .consult resolver value' stored⟩

abbrev SameSteps (levels : Location → Schema ρ → Prop) (left right : Value) :
    List (Step ρ) → List (Step ρ) → Prop :=
  List.Forall₂ (SameStep levels left right)

variable {levels outer : Location → Schema ρ → Prop} {left right : Value}

namespace SameStep

theorem below {inner inner' : Value} {segment : Segment} {step step' : Step ρ}
    (onLeft : left.inside? segment = some inner) (onRight : right.inside? segment = some inner')
    (deeper : ∀ place level, levels place level → outer (segment :: place) level)
    (same : SameStep levels inner inner' step step') :
    SameStep outer left right (step.below segment) (step'.below segment) := by
  cases same with
  | wrongKind same => exact .wrongKind same
  | missing => exact .missing
  | @unexpected place first second strays =>
      obtain ⟨level, members, others, declared, found, found', strays⟩ := strays
      have outside : Strays outer left right (segment :: place) first second := by
        refine ⟨level, members, others, deeper place level declared, ?_, ?_, strays⟩
        · simpa [Value.at?, onLeft] using found
        · simpa [Value.at?, onRight] using found'
      exact .unexpected outside
  | consult same => exact .consult same

theorem imp {step step' : Step ρ} (within : ∀ place level, levels place level → outer place level)
    (same : SameStep levels left right step step') : SameStep outer left right step step' := by
  cases same with
  | wrongKind same => exact .wrongKind same
  | missing => exact .missing
  | unexpected strays =>
      obtain ⟨level, members, others, declared, strays⟩ := strays
      exact .unexpected ⟨level, members, others, within _ level declared, strays⟩
  | consult same => exact .consult same

end SameStep

theorem SameSteps.below {inner inner' : Value} {segment : Segment} {steps steps' : List (Step ρ)}
    (onLeft : left.inside? segment = some inner) (onRight : right.inside? segment = some inner')
    (deeper : ∀ place level, levels place level → outer (segment :: place) level)
    (each : SameSteps levels inner inner' steps steps') :
    SameSteps outer left right (steps.map (Step.below segment))
      (steps'.map (Step.below segment)) := by
  rw [SameSteps, List.forall₂_map_left_iff, List.forall₂_map_right_iff]
  exact each.imp fun _ _ same => same.below onLeft onRight deeper

theorem SameSteps.imp {steps steps' : List (Step ρ)}
    (within : ∀ place level, levels place level → outer place level)
    (each : SameSteps levels left right steps steps') : SameSteps outer left right steps steps' :=
  List.Forall₂.imp (fun _ _ same => same.imp within) each

theorem SameSteps.missing :
    SameSteps levels left right [Step.refuse .missing] [Step.refuse .missing] :=
  .cons .missing .nil

theorem Scalar.admits_of_same {inner inner' : Value} (same : inner.Same inner') (kind : Scalar) :
    kind.admits inner = kind.admits inner' := by
  cases Value.sameValue_iff.mp same.sameValue <;> cases kind <;> rfl

namespace Plan

private theorem sameSteps_items {plan : Value → List (Step ρ)}
    (each : ∀ inner inner', inner.Same inner' →
      SameSteps levels inner inner' (plan inner) (plan inner'))
    (deeper : ∀ index place level, levels place level → outer (.item index :: place) level)
    {start : Nat} {lefts rights : List Value}
    (onLeft : ∀ offset, left.inside? (.item (start + offset)) = lefts[offset]?)
    (onRight : ∀ offset, right.inside? (.item (start + offset)) = rights[offset]?)
    (same : List.Forall₂ Value.Same lefts rights) :
    SameSteps outer left right (items plan start lefts) (items plan start rights) := by
  induction same generalizing start with
  | nil => exact .nil
  | @cons item item' lefts rights here _ ih =>
      rw [items, items]
      refine List.rel_append ?_ (ih ?_ ?_)
      · apply SameSteps.below (onLeft 0) (onRight 0) (deeper start)
        rw [here.isNull_eq]
        split
        · exact .missing
        · exact each item item' here
      · intro offset
        have later := onLeft (offset + 1)
        rwa [List.getElem?_cons_succ, ← Nat.add_assoc, Nat.add_right_comm] at later
      · intro offset
        have later := onRight (offset + 1)
        rwa [List.getElem?_cons_succ, ← Nat.add_assoc, Nat.add_right_comm] at later

private theorem sameSteps_member {plan : Value → List (Step ρ)}
    (each : ∀ inner inner', inner.Same inner' →
      SameSteps levels inner inner' (plan inner) (plan inner'))
    {name : String}
    (deeper : ∀ place level, levels place level → outer (.member name :: place) level)
    {members others : List (String × Value)} (same : (Value.object members).Same (.object others))
    (optional : Bool) :
    SameSteps outer (.object members) (.object others)
      ((present plan optional (Entries.get? name members)).map (Step.below (.member name)))
      ((present plan optional (Entries.get? name others)).map (Step.below (.member name))) := by
  have missing : SameSteps outer (.object members) (.object others)
      ((if optional then [] else [Step.refuse .missing]).map (Step.below (.member name)))
      ((if optional then [] else [Step.refuse .missing]).map (Step.below (.member name))) := by
    cases optional with
    | true => exact .nil
    | false => exact .cons .missing .nil
  have found := same.get? name
  generalize onLeft : Entries.get? name members = member at found
  generalize onRight : Entries.get? name others = member' at found
  cases found with
  | none => exact missing
  | @some inner inner' here =>
      by_cases isNull : inner = .null
      · have isNull' : inner' = .null := by
          rw [← Value.isNull_iff, ← here.isNull_eq, Value.isNull_iff, isNull]
        subst isNull isNull'
        exact missing
      · have held' : inner' ≠ .null := by
          rwa [ne_eq, ← Value.isNull_iff, ← here.isNull_eq, Value.isNull_iff]
        rw [present_some isNull, present_some held']
        exact (each inner inner' here).below onLeft onRight deeper

private theorem sameSteps_undeclared (declared : List (String × Field ρ))
    {members others : List (String × Value)} (same : (Value.object members).Same (.object others)) :
    SameSteps (Schema.Level ⟨declared⟩) (.object members) (.object others)
      (undeclared declared members) (undeclared declared others) := by
  have stray : ∀ (inside : List (String × Value)) name,
      name ∈ (Entries.names inside).filter (fun name => !Entries.contains name declared) →
        name ∈ Entries.names inside ∧ name ∉ Entries.names declared := by
    intro inside name listed
    obtain ⟨member, fresh⟩ := List.mem_filter.mp listed
    refine ⟨member, ?_⟩
    rw [← Entries.contains_iff]
    simpa using fresh
  rw [undeclared, undeclared, SameSteps, List.forall₂_map_left_iff, List.forall₂_map_right_iff,
    List.forall₂_iff_get]
  refine ⟨(same.perm_names.filter _).length_eq, ?_⟩
  intro index bound bound'
  obtain ⟨member, fresh⟩ := stray members _ (List.get_mem _ ⟨index, bound⟩)
  obtain ⟨member', fresh'⟩ := stray others _ (List.get_mem _ ⟨index, bound'⟩)
  have strays : Strays (Schema.Level ⟨declared⟩) (.object members) (.object others) [] _ _ :=
    ⟨⟨declared⟩, members, others, .here, rfl, rfl, member, member', fresh, fresh'⟩
  exact .unexpected strays

private theorem sameSteps_object {strict : Bool} {declared : List (String × Field ρ)}
    {members others : List (String × Value)} (same : (Value.object members).Same (.object others))
    (later : SameSteps (Schema.Level ⟨declared⟩) (.object members) (.object others)
      (fields strict declared members) (fields strict declared others)) :
    SameSteps (Schema.Level ⟨declared⟩) (.object members) (.object others)
      (object strict ⟨declared⟩ members) (object strict ⟨declared⟩ others) := by
  rw [object, object]
  refine List.rel_append ?_ later
  cases strict with
  | false => exact .nil
  | true => exact sameSteps_undeclared declared same

mutual

private theorem sameSteps_item (strict : Bool) : (kind : ItemKind ρ) → ∀ inner inner',
    inner.Same inner' →
      SameSteps kind.Level inner inner' (item strict kind inner) (item strict kind inner')
  | .scalar kind, inner, inner', same => by
      rw [item, item, Scalar.admits_of_same same kind]
      split
      · exact .nil
      · exact .cons (.wrongKind same) .nil
  | .object ⟨declared⟩, inner, inner', same => by
      cases Value.sameValue_iff.mp same.sameValue with
      | object =>
          have later := sameSteps_fields strict declared declared (List.Subset.refl _) _ _ same
          exact (sameSteps_object same later).imp fun _ _ inside => .object inside
      | null | bool | number | string | array => exact .cons (.wrongKind same) .nil
  | .custom resolver, inner, inner', same => .cons (.consult same) .nil

private theorem sameSteps_field (strict : Bool) : (kind : FieldKind ρ) → ∀ inner inner',
    inner.Same inner' →
      SameSteps kind.Level inner inner' (field strict kind inner) (field strict kind inner')
  | .item (.custom resolver), inner, inner', same => .cons (.consult same) .nil
  | .item (.scalar kind), inner, inner', same =>
      (sameSteps_item strict (.scalar kind) inner inner' same).imp fun _ _ inside => .item inside
  | .item (.object schema), inner, inner', same =>
      (sameSteps_item strict (.object schema) inner inner' same).imp fun _ _ inside => .item inside
  | .array element, inner, inner', same => by
      cases Value.sameValue_iff.mp same.sameValue with
      | @array lefts rights =>
          apply sameSteps_items (sameSteps_item strict element) (fun _ _ _ inside => .array inside)
          · simp [Value.inside?]
          · simp [Value.inside?]
          · exact same.items
      | null | bool | number | string | object => exact .cons (.wrongKind same) .nil

private theorem sameSteps_fields (strict : Bool) (all : List (String × Field ρ)) :
    (declared : List (String × Field ρ)) → declared ⊆ all →
    ∀ members others, (Value.object members).Same (.object others) →
      SameSteps (Schema.Level ⟨all⟩) (.object members) (.object others)
        (fields strict declared members) (fields strict declared others)
  | [], _, members, others, same => by
      rw [fields, fields]
      exact .nil
  | (name, ⟨kind, optional⟩) :: rest, within, members, others, same => by
      obtain ⟨listed, later⟩ := List.cons_subset.mp within
      have here := sameSteps_member (sameSteps_field strict kind)
        (fun _ _ inside => Schema.Level.field listed inside) same optional
      rw [fields, fields]
      exact List.rel_append here (sameSteps_fields strict all rest later members others same)

end

end Plan

theorem Schema.sameSteps (schema : Schema ρ) (strict : Bool)
    {members others : List (String × Value)}
    (same : (Value.object members).Same (.object others)) :
    SameSteps schema.Level (.object members) (.object others) (Plan.object strict schema members)
      (Plan.object strict schema others) := by
  obtain ⟨declared⟩ := schema
  exact Plan.sameSteps_object same
    (Plan.sameSteps_fields strict declared declared (List.Subset.refl _) members others same)

end DocShape
