import DocShape.Proofs.Equivalence
import DocShape.Proofs.Findings
import DocShape.Proofs.Resolvers

/-! Validation of what a validation has handed back. Only array items are changed, and
none of them becomes null, so the second walk comes to the same fields and items;
where the first one asked a resolver about an item, the second asks it about what
the item became. -/

set_option autoImplicit false

namespace DocShape

open Json (Value)

variable {σ : Type}

/-! ## Walks that succeed -/

namespace Walk

/-- From the first state, the walk succeeds and leaves the second one behind. -/
def Yields {α : Type} (walk : Walk σ α) (state : σ) (out : α) (final : σ) : Prop :=
  walk.run.run state = (.ok out, final)

section

variable {α β : Type} {walk : Walk σ α} {next : α → Walk σ β} {state final : σ}

theorem yields_pure_iff {value out : α} :
    Yields (pure value) state out final ↔ value = out ∧ state = final := by
  constructor
  · intro accepted
    cases accepted
    exact ⟨rfl, rfl⟩
  · rintro ⟨rfl, rfl⟩
    rfl

theorem not_yields_reject {violation : Violation} {out : α} :
    ¬ Yields (reject violation) state out final := by
  intro accepted
  cases accepted

theorem yields_bind_iff {out : β} :
    Yields (walk >>= next) state out final ↔
      ∃ value reached, Yields walk state value reached ∧
        Yields (next value) reached out final := by
  unfold Yields
  rw [run_bind]
  rcases walk.run.run state with ⟨error | value, reached⟩
  · constructor
    · intro accepted
      cases accepted
    · rintro ⟨_, _, first, _⟩
      cases first
  · constructor
    · intro accepted
      exact ⟨value, reached, rfl, accepted⟩
    · rintro ⟨_, _, first, second⟩
      cases first
      exact second

theorem yields_wrap_iff {wrap : α → β} {out : β} :
    Yields (do return wrap (← walk)) state out final ↔
      ∃ inner, Yields walk state inner final ∧ wrap inner = out := by
  rw [yields_bind_iff]
  constructor
  · rintro ⟨inner, reached, ran, returned⟩
    obtain ⟨same, rfl⟩ := yields_pure_iff.mp returned
    exact ⟨inner, ran, same⟩
  · rintro ⟨inner, ran, same⟩
    exact ⟨inner, final, ran, yields_pure_iff.mpr ⟨same, rfl⟩⟩

private theorem yields_resolve_iff {resolver : Resolver σ} {value out : Value} {path : String} :
    Yields (resolve resolver value path) state out final ↔
      (resolver value path).run state = (.ok out, final) ∧ out.sameValue value = true := by
  rcases asked : (resolver value path).run state with ⟨answer, next⟩
  cases faulty : Call.error? ⟨path, value, answer⟩ with
  | some error =>
      rw [Yields, run_resolve_failed asked faulty]
      constructor
      · intro accepted
        cases accepted
      · rintro ⟨answered, same⟩
        cases answered
        simp [Call.error?, same] at faulty
  | none =>
      obtain ⟨kept, rfl, same⟩ := Call.error?_eq_none_iff.mp faulty
      rw [Yields, run_resolve_answered asked same]
      constructor
      · intro accepted
        cases accepted
        exact ⟨rfl, same⟩
      · rintro ⟨answered, -⟩
        cases answered
        rfl

end

end Walk

/-! ## Resolvers that settle -/

/-- An accepted answer is given again when the resolver is asked about it instead, at
the same path and from the same state. No object in a question or an answer repeats
a name. -/
def Resolver.Settles (resolver : Resolver σ) : Prop :=
  ∀ (value answer : Value) (path : String) (state next : σ), value.UniqueNames →
    (resolver value path).run state = (.ok answer, next) → answer.sameValue value = true →
      answer.UniqueNames ∧ (resolver answer path).run state = (.ok answer, next)

/-- Without a state, what a resolver says of its answer depends on the answer alone. -/
theorem Resolver.settles_ofPure_iff [Inhabited σ] {resolver : PureResolver} :
    (Resolver.ofPure resolver : Resolver σ).Settles ↔
      ∀ (value answer : Value) (path : String), value.UniqueNames →
        resolver value path = .ok answer → answer.sameValue value = true →
          answer.UniqueNames ∧ resolver answer path = .ok answer := by
  constructor
  · intro settles value answer path unique answered same
    have asked : (Resolver.ofPure resolver value path).run (default : σ) =
        (.ok answer, default) := by
      rw [← answered]
      rfl
    obtain ⟨uniqueAnswer, again⟩ := settles value answer path default default unique asked same
    exact ⟨uniqueAnswer, congrArg Prod.fst again⟩
  · intro settles value answer path state next unique asked same
    have answered : resolver value path = .ok answer := congrArg Prod.fst asked
    have stays : state = next := congrArg Prod.snd asked
    obtain ⟨uniqueAnswer, again⟩ := settles value answer path unique answered same
    refine ⟨uniqueAnswer, ?_⟩
    rw [← stays, ← again]
    rfl

namespace Walk

/-- What the check accepts it accepts again as it handed it back. -/
def Settles (check : Value → Walk σ Value) : Prop :=
  ∀ (value out : Value) (state final : σ), value.UniqueNames →
    Yields (check value) state out final →
      out.isNull = value.isNull ∧ Yields (check out) state out final

private theorem settles_resolve {resolver : Resolver σ} (settles : resolver.Settles)
    (path : String) :
    Settles fun value => resolve resolver value path := by
  intro value out state final unique accepted
  obtain ⟨answered, same⟩ := yields_resolve_iff.mp accepted
  obtain ⟨uniqueOut, again⟩ := settles value out path state final unique answered same
  have kept : out.Same value := ⟨uniqueOut, unique, same⟩
  refine ⟨kept.isNull_eq, yields_resolve_iff.mpr ⟨again, ?_⟩⟩
  exact Value.sameValue_self uniqueOut

private theorem items_again {check : Value → String → Walk σ Value}
    (settles : ∀ place, Settles fun value => check value place) {path : String} {index : Nat}
    {values outs : List Value} {state final : σ} (unique : ∀ value ∈ values, value.UniqueNames)
    (accepted : Yields (items check path index values) state outs final) :
    Yields (items check path index outs) state outs final := by
  induction values generalizing index outs state with
  | nil =>
      obtain ⟨rfl, rfl⟩ := yields_pure_iff.mp accepted
      exact accepted
  | cons value rest ih =>
      obtain ⟨uniqueHere, uniqueRest⟩ := List.forall_mem_cons.mp unique
      rw [items] at accepted
      cases isNull : value.isNull with
      | true =>
          rw [isNull] at accepted
          exact absurd accepted not_yields_reject
      | false =>
          rw [isNull] at accepted
          obtain ⟨checked, reached, here, later⟩ := yields_bind_iff.mp accepted
          obtain ⟨others, ended, remaining, returned⟩ := yields_bind_iff.mp later
          obtain ⟨rfl, rfl⟩ := yields_pure_iff.mp returned
          obtain ⟨sameNull, again⟩ := settles _ value checked state reached uniqueHere here
          rw [items, sameNull, isNull]
          apply yields_bind_iff.mpr
          refine ⟨checked, reached, again, yields_bind_iff.mpr ?_⟩
          exact ⟨others, ended, ih uniqueRest remaining, returned⟩

/-! ## The fields of an object once more -/

/-- No object inside a declared member repeats a name. The walk looks into no others. -/
def UniqueDeclared {ρ : Type} (declared : List (String × Field ρ))
    (members : List (String × Value)) : Prop :=
  ∀ name ∈ Entries.names declared, ∀ value, Entries.get? name members = some value →
    value.UniqueNames

theorem UniqueDeclared.of_object {ρ : Type} {declared : List (String × Field ρ)}
    {members : List (String × Value)} (unique : (Value.object members).UniqueNames) :
    UniqueDeclared declared members := by
  obtain ⟨-, each⟩ := Value.uniqueNames_object_iff.mp unique
  intro name _ value found
  exact each name value (Entries.mem_of_get? found)

/-- The fields hand back members under the names they were given, change none that they
do not declare, and accept what they have handed back. -/
structure FieldsAgain (strict : Bool) (declared : List (String × Field (Resolver σ)))
    (members outs : List (String × Value)) (path : String) (state final : σ) : Prop where
  sameNames : Entries.names outs = Entries.names members
  others : ∀ name ∉ Entries.names declared, Entries.get? name outs = Entries.get? name members
  again : Yields (fields strict declared outs path) state outs final

section

variable {strict optional : Bool} {name : String} {kind : FieldKind (Resolver σ)}
  {rest : List (String × Field (Resolver σ))} {members outs : List (String × Value)}
  {value checked : Value} {path : String} {state reached final : σ}

theorem UniqueDeclared.insert {field : Field (Resolver σ)}
    (unique : UniqueDeclared ((name, field) :: rest) members) (fresh : name ∉ Entries.names rest)
    (checked : Value) : UniqueDeclared rest (Entries.insert name checked members) := by
  intro key listed held found
  have away : name ≠ key := fun same => fresh (same ▸ listed)
  rw [Entries.get?_insert_of_ne away] at found
  exact unique key (List.mem_cons_of_mem _ listed) held found

theorem FieldsAgain.absent (later : FieldsAgain strict rest members outs path state final)
    (fresh : name ∉ Entries.names rest) (absent : Absent (Entries.get? name members))
    (kind : FieldKind (Resolver σ)) :
    FieldsAgain strict ((name, ⟨kind, true⟩) :: rest) members outs path state final := by
  refine ⟨later.sameNames, ?_, ?_⟩
  · intro key away
    exact later.others key fun listed => away (List.mem_cons_of_mem _ listed)
  · rw [← later.others name fresh] at absent
    rw [fields_cons_absent absent, if_pos rfl]
    exact later.again

/-- What the field stores is not seen by the fields after it, so that it is still there
when the second walk comes to the field. -/
theorem FieldsAgain.present
    (later : FieldsAgain strict rest (Entries.insert name checked members) outs path reached final)
    (fresh : name ∉ Entries.names rest) (found : Entries.get? name members = some value)
    (held : checked ≠ .null)
    (here : Yields (field strict kind checked (KeyPath.join path name)) state checked reached) :
    FieldsAgain strict ((name, ⟨kind, optional⟩) :: rest) members outs path state final := by
  have stored : Entries.get? name outs = some checked := by
    rw [later.others name fresh, Entries.get?_insert_self]
  refine ⟨later.sameNames.trans (Entries.names_insert_of_get? found checked), ?_, ?_⟩
  · intro key away
    rw [Entries.names_cons, List.mem_cons, not_or] at away
    obtain ⟨different, away⟩ := away
    rw [later.others key away, Entries.get?_insert_of_ne (Ne.symm different)]
  · rw [fields_cons_present stored held]
    apply yields_bind_iff.mpr
    refine ⟨checked, reached, here, ?_⟩
    rw [Entries.insert_of_get? stored]
    exact later.again

/-- The strict check looks at names alone, and these stay. -/
theorem object_again {declared : List (String × Field (Resolver σ))}
    (walked : Yields (fields strict declared members path) state outs final →
      FieldsAgain strict declared members outs path state final)
    (accepted : Yields (object strict ⟨declared⟩ members path) state outs final) :
    Yields (object strict ⟨declared⟩ outs path) state outs final := by
  rw [object] at accepted
  split at accepted
  · exact absurd accepted not_yields_reject
  · rename_i known
    obtain ⟨sameNames, -, again⟩ := walked accepted
    have sameSearch : undeclared? declared outs = undeclared? declared members := by
      rw [undeclared?, undeclared?, sameNames]
    rw [object, sameSearch, known]
    exact again

end

mutual

private theorem settles_item (strict : Bool) : (kind : ItemKind (Resolver σ)) → kind.UniqueNames →
    (∀ resolver ∈ kind.resolvers, resolver.Settles) → ∀ path,
    Settles fun value => item strict kind value path
  | .scalar kind, _, _, path => by
      intro value out state final _ accepted
      have again := accepted
      simp only [item] at accepted
      split at accepted
      · obtain ⟨rfl, -⟩ := yields_pure_iff.mp accepted
        exact ⟨rfl, again⟩
      · exact absurd accepted not_yields_reject
  | .object ⟨declared⟩, unique, settles, path => by
      intro value out state final uniqueValue accepted
      cases value with
      | object members =>
          simp only [item] at accepted
          obtain ⟨others, ran, rfl⟩ := yields_wrap_iff.mp accepted
          have uniqueMembers : UniqueDeclared declared members := .of_object uniqueValue
          have again := object_again
            (fields_again strict declared unique.1 unique.2 settles uniqueMembers) ran
          exact ⟨rfl, yields_wrap_iff.mpr ⟨others, again, rfl⟩⟩
      | null | bool | number | string | array => exact absurd accepted not_yields_reject
  | .custom resolver, _, settles, path =>
      settles_resolve (settles resolver List.mem_cons_self) path

private theorem settles_field (strict : Bool) : (kind : FieldKind (Resolver σ)) → kind.UniqueNames →
    (∀ resolver ∈ kind.resolvers, resolver.Settles) → ∀ path,
    Settles fun value => field strict kind value path
  -- A custom field keeps its value, so that the second walk asks what the first one asked.
  | .item (.custom resolver), _, _, path => by
      intro value out state final _ accepted
      obtain ⟨answer, reached, _, returned⟩ := yields_bind_iff.mp accepted
      obtain ⟨rfl, -⟩ := yields_pure_iff.mp returned
      exact ⟨rfl, accepted⟩
  | .item (.scalar kind), unique, settles, path =>
      settles_item strict (.scalar kind) unique settles path
  | .item (.object schema), unique, settles, path =>
      settles_item strict (.object schema) unique settles path
  | .array element, unique, settles, path => by
      intro value out state final uniqueValue accepted
      cases value with
      | array values =>
          simp only [field] at accepted
          obtain ⟨outs, ran, rfl⟩ := yields_wrap_iff.mp accepted
          have again := items_again (settles_item strict element unique settles)
            (Value.uniqueNames_array_iff.mp uniqueValue) ran
          exact ⟨rfl, yields_wrap_iff.mpr ⟨outs, again, rfl⟩⟩
      | null | bool | number | string | object => exact absurd accepted not_yields_reject

private theorem fields_again (strict : Bool) : (declared : List (String × Field (Resolver σ))) →
    (Entries.names declared).Nodup → UniqueNamesIn declared →
    (∀ resolver ∈ resolversIn declared, resolver.Settles) →
    ∀ {members outs path state final}, UniqueDeclared declared members →
    Yields (fields strict declared members path) state outs final →
    FieldsAgain strict declared members outs path state final
  | [], _, _, _, members, outs, path, state, final, _, accepted => by
      have again := accepted
      rw [fields] at accepted
      obtain ⟨rfl, -⟩ := yields_pure_iff.mp accepted
      exact ⟨rfl, fun _ _ => rfl, again⟩
  | (name, ⟨kind, optional⟩) :: rest, distinct, unique, settles, members, outs, path, state, final,
      uniqueMembers, accepted => by
      rw [Entries.names_cons, List.nodup_cons] at distinct
      obtain ⟨fresh, distinct⟩ := distinct
      obtain ⟨uniqueKind, uniqueRest⟩ := unique
      obtain ⟨settlesHere, settlesRest⟩ := List.forall_mem_append.mp settles
      rcases absent_or_present (Entries.get? name members) with absent | ⟨value, found, held⟩
      · rw [fields_cons_absent absent] at accepted
        cases optional with
        | false => exact absurd accepted not_yields_reject
        | true =>
            have uniqueLater : UniqueDeclared rest members :=
              fun key listed => uniqueMembers key (List.mem_cons_of_mem _ listed)
            have later :=
              fields_again strict rest distinct uniqueRest settlesRest uniqueLater accepted
            exact later.absent fresh absent kind
      · rw [fields_cons_present found held] at accepted
        obtain ⟨checked, reached, here, later⟩ := yields_bind_iff.mp accepted
        have uniqueValue := uniqueMembers name List.mem_cons_self value found
        obtain ⟨sameNull, hereAgain⟩ := settles_field strict kind uniqueKind settlesHere _ value
          checked state reached uniqueValue here
        have checkedHeld : checked ≠ .null := by
          rw [ne_eq, ← Value.isNull_iff, sameNull, Value.isNull_iff]
          exact held
        have later := fields_again strict rest distinct uniqueRest settlesRest
          (uniqueMembers.insert fresh checked) later
        exact later.present fresh found checkedHeld hereAgain

end

end Walk

theorem walkDocument_again {schema : Schema (Resolver σ)} (unique : schema.UniqueNames)
    (settles : ∀ resolver ∈ schema.resolvers, resolver.Settles) {options : Options}
    {document out : Value} (distinct : document.UniqueNames) {state final : σ}
    (accepted : Walk.Yields (walkDocument schema options document) state out final) :
    Walk.Yields (walkDocument schema options out) state out final := by
  obtain ⟨declared⟩ := schema
  cases document with
  | object members =>
      obtain ⟨outs, ran, rfl⟩ := Walk.yields_wrap_iff.mp accepted
      have uniqueMembers : Walk.UniqueDeclared declared members := .of_object distinct
      have again := Walk.object_again
        (Walk.fields_again options.strict declared unique.1 unique.2 settles uniqueMembers) ran
      exact Walk.yields_wrap_iff.mpr ⟨outs, again, rfl⟩
  | null | bool | number | string | array => exact absurd accepted Walk.not_yields_reject

/-- What a validation has handed back passes again as it is, to the order of members and
the form of numbers. -/
theorem validate_idempotent (schema : Schema.Distinct (Resolver σ))
    (settles : ∀ resolver ∈ schema.resolvers, resolver.Settles) (options : Options)
    (document : Value.Distinct) (out : Value) (state final : σ)
    (accepted : (validate schema options document).run state = (.ok out, final)) :
    (validate schema options out).run state = (.ok out, final) := by
  cases empty : schema.emptyObject? options.path with
  | some path =>
      rw [validate_malformed empty] at accepted
      cases accepted
  | none =>
      rw [validate_wellFormed empty] at accepted ⊢
      exact walkDocument_again schema.unique settles document.property accepted

/-- Puts the unit of a quantity first. -/
def PureResolver.unitFirst : PureResolver
  | .object [("size", size), ("unit", unit)], _ => .ok (.object [("unit", unit), ("size", size)])
  | value, _ => .ok value

theorem Resolver.settles_unitFirst : (Resolver.ofPure .unitFirst : Resolver Unit).Settles := by
  apply settles_ofPure_iff.mpr
  intro value answer path unique answered same
  unfold PureResolver.unitFirst at answered
  split at answered
  · rename_i size unit
    cases answered
    obtain ⟨-, each⟩ := Value.uniqueNames_object_iff.mp unique
    have distinct : ["unit", "size"].Nodup := by decide
    refine ⟨Value.uniqueNames_object_iff.mpr ⟨distinct, ?_⟩, rfl⟩
    intro name held listed
    exact each name held (by simpa [or_comm] using listed)
  · rename_i other
    cases answered
    refine ⟨unique, ?_⟩
    unfold PureResolver.unitFirst
    split
    · exact absurd rfl (other _ _)
    · rfl

def Schema.gauges : Schema (Resolver Unit) :=
  Schema.map Resolver.ofPure ⟨[("limit", .custom .unitFirst),
    ("series", .array (.object ⟨[("readings", .array (.custom .unitFirst))]⟩))]⟩

def gauges (reading : Value) : Value :=
  .object [("series", .array [.object [("place", .null), ("readings", .array [reading])]]),
    ("limit", .object [("size", .string "9"), ("unit", .string "mm")])]

/-- The reading is turned around and the limit is not, since it is no array item. -/
theorem validate_idempotent_gauges :
    let reading : Value := .object [("size", .string "5"), ("unit", .string "mm")]
    let turned : Value := .object [("unit", .string "mm"), ("size", .string "5")]
    Schema.gauges.UniqueNames ∧ (∀ resolver ∈ Schema.gauges.resolvers, resolver.Settles) ∧
      (gauges reading).UniqueNames ∧
      (validate Schema.gauges ⟨false, none⟩ (gauges reading)).run () = (.ok (gauges turned), ()) ∧
      (validate Schema.gauges ⟨false, none⟩ (gauges turned)).run () =
        (.ok (gauges turned), ()) := by
  intro reading turned
  have unique : Schema.gauges.UniqueNames := by decide
  have settles : ∀ resolver ∈ Schema.gauges.resolvers, resolver.Settles := by
    intro resolver listed
    have asked : resolver ∈ [Resolver.ofPure .unitFirst, Resolver.ofPure .unitFirst] := listed
    simp only [List.mem_cons, List.not_mem_nil, or_false, or_self] at asked
    subst asked
    exact Resolver.settles_unitFirst
  have distinct : (gauges reading).UniqueNames := by decide
  have accepted : (validate Schema.gauges ⟨false, none⟩ (gauges reading)).run () =
      (.ok (gauges turned), ()) := rfl
  have again := validate_idempotent ⟨Schema.gauges, unique⟩ settles ⟨false, none⟩
    ⟨gauges reading, distinct⟩ (gauges turned) () () accepted
  exact ⟨unique, settles, distinct, accepted, again⟩

end DocShape
