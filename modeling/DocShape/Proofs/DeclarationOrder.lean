import DocShape.Proofs.Customs
import DocShape.Proofs.EmptyObjects
import DocShape.Proofs.Findings

/-! Schemas that declare the same fields in another order, at any depth. With resolvers
that keep no state, the order shows in nothing but in which of several errors is
reported: the steps of a plan are moved about, and what they store they store at
places apart from each other. -/

set_option autoImplicit false

namespace DocShape

open Json (Value)

variable {σ ρ : Type}

mutual

/-- The items differ in the order of declaration only. -/
inductive ItemKind.Reordered : ItemKind ρ → ItemKind ρ → Prop where
  | scalar {kind : Scalar} : ItemKind.Reordered (.scalar kind) (.scalar kind)
  | object {schema other : Schema ρ} (inside : schema.Reordered other) :
      ItemKind.Reordered (.object schema) (.object other)
  | custom {resolver : ρ} : ItemKind.Reordered (.custom resolver) (.custom resolver)

inductive FieldKind.Reordered : FieldKind ρ → FieldKind ρ → Prop where
  | item {kind other : ItemKind ρ} (inside : kind.Reordered other) :
      FieldKind.Reordered (.item kind) (.item other)
  | array {element other : ItemKind ρ} (inside : element.Reordered other) :
      FieldKind.Reordered (.array element) (.array other)

/-- The fields of a level are moved about, and then reordered inside one by one. -/
inductive Schema.Reordered : Schema ρ → Schema ρ → Prop where
  | level {fields moved others : List (String × Field ρ)} (perm : fields.Perm moved)
      (inside : FieldsReordered moved others) : Schema.Reordered ⟨fields⟩ ⟨others⟩

inductive FieldsReordered : List (String × Field ρ) → List (String × Field ρ) → Prop where
  | nil : FieldsReordered [] []
  | cons {name : String} {kind other : FieldKind ρ} {optional : Bool}
      {rest others : List (String × Field ρ)} (here : kind.Reordered other)
      (later : FieldsReordered rest others) :
      FieldsReordered ((name, ⟨kind, optional⟩) :: rest) ((name, ⟨other, optional⟩) :: others)

end

/-! ## What reordered schemas declare -/

theorem FieldsReordered.names_eq {fields others : List (String × Field ρ)} :
    FieldsReordered fields others → Entries.names fields = Entries.names others
  | .nil => rfl
  | .cons _ later => by rw [Entries.names_cons, Entries.names_cons, later.names_eq]

theorem Schema.Reordered.perm_names {schema other : Schema ρ} (reordered : schema.Reordered other) :
    (Entries.names schema.fields).Perm (Entries.names other.fields) := by
  cases reordered with
  | level perm inside =>
      rw [← inside.names_eq]
      exact perm.map Prod.fst

theorem Schema.Reordered.contains_eq {schema other : Schema ρ}
    (reordered : schema.Reordered other) (name : String) :
    Entries.contains name schema.fields = Entries.contains name other.fields := by
  rw [Bool.eq_iff_iff, Entries.contains_iff, Entries.contains_iff, reordered.perm_names.mem_iff]

mutual

theorem ItemKind.Reordered.uniqueNames {kind other : ItemKind ρ} :
    kind.Reordered other → kind.UniqueNames → other.UniqueNames
  | .scalar, _ => trivial
  | .object inside, unique => inside.uniqueNames unique
  | .custom, _ => trivial

theorem FieldKind.Reordered.uniqueNames {kind other : FieldKind ρ} :
    kind.Reordered other → kind.UniqueNames → other.UniqueNames
  | .item inside, unique => inside.uniqueNames unique
  | .array inside, unique => inside.uniqueNames unique

theorem Schema.Reordered.uniqueNames {schema other : Schema ρ} :
    schema.Reordered other → schema.UniqueNames → other.UniqueNames
  | .level perm inside, unique => by
      have names := (Schema.Reordered.level perm inside).perm_names
      refine ⟨names.nodup_iff.mp unique.1, inside.uniqueNamesIn ?_⟩
      have each := uniqueNamesIn_iff.mp unique.2
      exact uniqueNamesIn_iff.mpr fun pair listed => each pair (perm.mem_iff.mpr listed)

theorem FieldsReordered.uniqueNamesIn {fields others : List (String × Field ρ)} :
    FieldsReordered fields others → UniqueNamesIn fields → UniqueNamesIn others
  | .nil, _ => trivial
  | .cons here later, unique => ⟨here.uniqueNames unique.1, later.uniqueNamesIn unique.2⟩

end

mutual

theorem ItemKind.Reordered.emptyObjects {kind other : ItemKind ρ} :
    kind.Reordered other → ∀ path, (kind.emptyObjects path).Perm (other.emptyObjects path)
  | .scalar, _ => .refl _
  | .object (.level perm inside), path => by
      have below := Schema.Reordered.emptyObjects (.level perm inside) path
      cases inside with
      | nil =>
          cases perm.eq_nil
          exact .refl _
      | cons here later =>
          have declares := fun none => List.cons_ne_nil _ _ (perm.symm.trans (.of_eq none)).eq_nil
          rw [ItemKind.emptyObjects_of_declares declares]
          exact below
  | .custom, _ => .refl _

theorem FieldKind.Reordered.emptyObjects {kind other : FieldKind ρ} :
    kind.Reordered other → ∀ path, (kind.emptyObjects path).Perm (other.emptyObjects path)
  | .item inside, path => inside.emptyObjects path
  | .array inside, path => inside.emptyObjects (KeyPath.anyItem path)

theorem Schema.Reordered.emptyObjects {schema other : Schema ρ} :
    schema.Reordered other → ∀ path, (schema.emptyObjects path).Perm (other.emptyObjects path)
  | .level perm inside, path => by
      have moved := perm.flatMap_right fun pair : String × Field ρ =>
        pair.2.kind.emptyObjects (KeyPath.join path pair.1)
      rw [← emptyObjectsIn_eq_flatMap, ← emptyObjectsIn_eq_flatMap] at moved
      exact moved.trans (inside.emptyObjectsIn path)

theorem FieldsReordered.emptyObjectsIn {fields others : List (String × Field ρ)} :
    FieldsReordered fields others → ∀ path,
      (emptyObjectsIn path fields).Perm (emptyObjectsIn path others)
  | .nil, _ => .refl _
  | .cons here later, path => (here.emptyObjects _).append (later.emptyObjectsIn path)

end

/-! ## The steps of a plan -/

namespace Plan

private theorem undeclared_congr {fields others : List (String × Field ρ)}
    (same : ∀ name, Entries.contains name fields = Entries.contains name others)
    (members : List (String × Value)) : undeclared fields members = undeclared others members := by
  simp only [undeclared, same]

private theorem items_perm {plan moved : Value → List (Step ρ)}
    (each : ∀ value, (plan value).Perm (moved value)) (index : Nat) (values : List Value) :
    (items plan index values).Perm (items moved index values) := by
  induction values generalizing index with
  | nil => exact .refl _
  | cons value rest ih =>
      refine List.Perm.append (List.Perm.map _ ?_) (ih (index + 1))
      split
      · exact .refl _
      · exact each value

private theorem present_perm {plan moved : Value → List (Step ρ)}
    (each : ∀ value, (plan value).Perm (moved value)) (optional : Bool) (member : Option Value) :
    (present plan optional member).Perm (present moved optional member) := by
  rcases absent_or_present member with absent | ⟨value, rfl, held⟩
  · rw [present_absent absent, present_absent absent]
  · rw [present_some held, present_some held]
    exact each value

private theorem item_object_perm {strict : Bool} {schema other : Schema ρ}
    (inside : ∀ members, (object strict schema members).Perm (object strict other members))
    (value : Value) :
    (item strict (.object schema) value).Perm (item strict (.object other) value) := by
  cases value with
  | object members => exact inside members
  | null | bool | number | string | array => exact .refl _

end Plan

mutual

theorem ItemKind.Reordered.plan (strict : Bool) {kind other : ItemKind ρ} :
    kind.Reordered other → ∀ value,
      (Plan.item strict kind value).Perm (Plan.item strict other value)
  | .scalar, _ => .refl _
  | .object inside, value => Plan.item_object_perm (inside.plan strict) value
  | .custom, _ => .refl _

theorem FieldKind.Reordered.plan (strict : Bool) {kind other : FieldKind ρ} :
    kind.Reordered other →
      ∀ value, (Plan.field strict kind value).Perm (Plan.field strict other value)
  | .item .scalar, _ => .refl _
  | .item (.object inside), value => Plan.item_object_perm (inside.plan strict) value
  | .item .custom, _ => .refl _
  | .array inside, value => by
      cases value with
      | array values => exact Plan.items_perm (inside.plan strict) 0 values
      | null | bool | number | string | object => exact .refl _

theorem Schema.Reordered.plan (strict : Bool) {schema other : Schema ρ} :
    schema.Reordered other → ∀ members,
      (Plan.object strict schema members).Perm (Plan.object strict other members)
  | .level perm inside, members => by
      have sameNames := (Schema.Reordered.level perm inside).contains_eq
      have moved := perm.flatMap_right fun pair : String × Field ρ =>
        (Plan.present (fun value => Plan.field strict pair.2.kind value) pair.2.optional
          (Entries.get? pair.1 members)).map (Step.below (.member pair.1))
      rw [← Plan.fields_eq_flatMap, ← Plan.fields_eq_flatMap] at moved
      rw [Plan.object, Plan.object, Plan.undeclared_congr sameNames]
      exact .append_left _ (moved.trans (inside.plan strict members))

theorem FieldsReordered.plan (strict : Bool) {fields others : List (String × Field ρ)} :
    FieldsReordered fields others → ∀ members,
      (Plan.fields strict fields members).Perm (Plan.fields strict others members)
  | .nil, _ => .refl _
  | .cons here later, members => by
      rw [Plan.fields, Plan.fields]
      exact ((Plan.present_perm (here.plan strict) _ _).map _).append (later.plan strict members)

end

/-! ## Findings -/

theorem Schema.Reordered.malformed_iff {schema other : Schema ρ}
    (reordered : schema.Reordered other) : schema.Malformed ↔ other.Malformed := by
  rw [← not_iff_not, ← Schema.emptyObjects_eq_nil_iff schema "",
    ← Schema.emptyObjects_eq_nil_iff other "", ← List.length_eq_zero_iff,
    ← List.length_eq_zero_iff, (reordered.emptyObjects "").length_eq]

theorem Schema.Reordered.findings {schema other : Schema PureResolver}
    (reordered : schema.Reordered other) (options : Options) (document : Value) :
    (schema.findings options document).Perm (other.findings options document) := by
  have places := reordered.emptyObjects options.path
  cases listed : schema.emptyObjects options.path with
  | nil =>
      rw [listed] at places
      simp only [Schema.findings, listed, places.nil_eq.symm]
      cases document with
      | object members => exact (reordered.plan options.strict members).filterMap _
      | null | bool | number | string | array => exact .refl _
  | cons path paths =>
      cases moved : other.emptyObjects options.path with
      | nil =>
          rw [listed, moved] at places
          exact absurd places.eq_nil (List.cons_ne_nil path paths)
      | cons first others =>
          rw [listed, moved] at places
          simp only [Schema.findings, listed, moved]
          exact places.map _

/-! ## Outputs -/

/-- What a step without failure leaves of the document. -/
def Step.settle (path : String) (document : Value) : Step PureResolver → Value
  | ⟨location, .consult resolver value true⟩ =>
      match resolver value (KeyPath.render path location) with
      | .ok answer => document.store location answer
      | .error _ => document
  | _ => document

namespace Plan

/-- Steps that all succeed leave the document as they do one after another. -/
theorem eq_settle_of_perform {path : String} {steps : List (Step PureResolver)}
    {document out : Value} {state reached : σ}
    (ended : (perform path (steps.map (Step.map Resolver.ofPure)) document).run.run state =
      (.ok out, reached)) :
    out = steps.foldl (Step.settle path) document := by
  induction steps generalizing document with
  | nil =>
      cases ended
      rfl
  | cons step rest ih =>
      obtain ⟨location, action⟩ := step
      cases action with
      | refuse refusal => cases ended
      | consult resolver value stored =>
          rw [List.map_cons, Step.map, perform, Walk.run_bind] at ended
          rcases Walk.run_resolve_ofPure resolver value (KeyPath.render path location) state with
            ⟨error, -, failed⟩ | ⟨answer, -, answered, ran⟩
          · rw [failed] at ended
            cases ended
          · rw [ran] at ended
            rw [List.foldl_cons, ih ended]
            cases stored with
            | false => rfl
            | true => simp only [Step.settle, ↓reduceIte, answered]

/-- Both steps can be taken in either order. -/
def Commute (path : String) (first second : Step PureResolver) : Prop :=
  ∀ document, Step.settle path (Step.settle path document first) second =
    Step.settle path (Step.settle path document second) first

private theorem commute_of_apart {path : String} {first second : Step PureResolver}
    (apart : ∀ custom ∈ first.custom?, ∀ other ∈ second.custom?,
      custom.location.Apart other.location) : Commute path first second := by
  intro document
  obtain ⟨location, action⟩ := first
  obtain ⟨place, later⟩ := second
  cases action with
  | refuse => rfl
  | consult resolver value stored =>
      cases later with
      | refuse => rfl
      | consult other held kept =>
          have away : location.Apart place := apart _ rfl _ rfl
          -- A step that stores nothing is in nobody's way.
          cases stored <;> cases kept
          case true.true =>
            simp only [Step.settle]
            cases resolver value (KeyPath.render path location) with
            | error => rfl
            | ok answer =>
                cases other held (KeyPath.render path place) with
                | error => rfl
                | ok last => exact Json.Value.store_store_of_apart away document answer last
          all_goals rfl

private theorem foldl_settle_perm {path : String} {steps moved : List (Step PureResolver)}
    (separate : Customs.Separate (steps.filterMap Step.custom?)) (perm : steps.Perm moved)
    (document : Value) :
    steps.foldl (Step.settle path) document = moved.foldl (Step.settle path) document := by
  have pairs : steps.Pairwise (Commute path) :=
    (List.pairwise_filterMap.mp separate).imp fun apart =>
      commute_of_apart fun custom held other later => apart custom held other later
  have flipped : steps.Pairwise (flip (Commute path)) :=
    pairs.imp fun commute document => (commute document).symm
  have all := pairs.forall_of_forall_of_flip (fun _ _ _ => rfl) flipped
  exact perm.foldl_eq'
    (fun first listed second later document => all listed later document) document

end Plan

variable {schema other : Schema PureResolver} {options : Options} {document out : Value}
  {state reached : σ}

theorem Schema.eq_settle_of_validate (unique : schema.UniqueNames)
    (ended : (validate (schema.map Resolver.ofPure) options document).run state =
      (.ok out, reached)) :
    ∃ members, document = .object members ∧
      out = (Plan.object options.strict schema members).foldl (Step.settle options.path)
        document := by
  have uniqueMapped := Schema.uniqueNames_map (Resolver.ofPure : PureResolver → Resolver σ) unique
  obtain ⟨calls, validates⟩ := exists_validates_of_run uniqueMapped ended
  cases validates with
  | performed wellFormed runs =>
      rw [Plan.object_map] at runs
      exact ⟨_, rfl, Plan.eq_settle_of_perform runs.run_perform⟩

theorem Schema.Reordered.output_eq (reordered : schema.Reordered other)
    (unique : schema.UniqueNames) {moved : Value} {final : σ}
    (ended : (validate (schema.map Resolver.ofPure) options document).run state =
      (.ok out, reached))
    (endedMoved : (validate (other.map Resolver.ofPure) options document).run state =
      (.ok moved, final)) :
    out = moved := by
  obtain ⟨members, rfl, rfl⟩ := Schema.eq_settle_of_validate unique ended
  obtain ⟨members', same, rfl⟩ :=
    Schema.eq_settle_of_validate (reordered.uniqueNames unique) endedMoved
  cases same
  have separate := Customs.separate_customs unique (.object members)
  rw [← Customs.object_of_plan options.strict] at separate
  exact Plan.foldl_settle_perm separate (reordered.plan options.strict members) _

/-! ## Members that no field declares -/

/-- The validation ended at a member of the outermost level that the schema does not declare.
The path of the error alone would not tell, for below a field without a name a member may
read as if it were one of the outermost level. -/
def Schema.RefusesMember {ρ : Type} (schema : Schema ρ) (options : Options) (document : Value)
    (name : String) (result : Except Error Value) : Prop :=
  ∃ members, document = .object members ∧ name ∈ Entries.names members ∧
    name ∉ Entries.names schema.fields ∧
    result = .error (.rejected (.unexpected (KeyPath.join options.path name) name))

theorem Walk.undeclared?_eq_some {fields : List (String × Field ρ)}
    {members : List (String × Value)} {name : String}
    (found : Walk.undeclared? fields members = some name) :
    name ∈ Entries.names members ∧ name ∉ Entries.names fields := by
  refine ⟨List.mem_of_find?_eq_some found, ?_⟩
  rw [← Entries.contains_iff]
  simpa using List.find?_some found

private theorem validate_undeclared {schema : Schema (Resolver σ)} (strict : options.strict = true)
    (wellFormed : schema.emptyObject? options.path = none) {members : List (String × Value)}
    {name : String} (found : Walk.undeclared? schema.fields members = some name) :
    validate schema options (.object members) =
      pure (.error (.rejected (.unexpected (KeyPath.join options.path name) name))) := by
  obtain ⟨fields⟩ := schema
  rw [validate_wellFormed wellFormed, walkDocument, Walk.object]
  simp only [strict, ↓reduceIte, found]
  rfl

/-- A member of the outermost level is refused before anything else of a document is looked at. -/
theorem Schema.refusesMember_iff {schema : Schema (Resolver σ)} (strict : options.strict = true)
    {result : Except Error Value}
    (ended : ((validate schema options document).run state).1 = result) (name : String) :
    schema.RefusesMember options document name result ↔
      ¬ schema.Malformed ∧ ∃ members, document = .object members ∧
        Walk.undeclared? schema.fields members = some name := by
  subst ended
  constructor
  · rintro ⟨members, rfl, listed, undeclared, ended⟩
    cases empty : schema.emptyObject? options.path with
    | some path =>
        rw [validate_malformed empty] at ended
        cases ended
    | none =>
        refine ⟨Schema.emptyObject?_eq_none_iff.mp empty, members, rfl, ?_⟩
        cases found : Walk.undeclared? schema.fields members with
        | none =>
            have declared := List.find?_eq_none.mp found name listed
            rw [← Entries.contains_iff] at undeclared
            simp [undeclared] at declared
        | some stray =>
            rw [validate_undeclared strict empty found] at ended
            have reported := Error.rejected.inj (Except.error.inj ended)
            rw [(Violation.unexpected.inj reported).2]
  · rintro ⟨wellFormed, members, rfl, found⟩
    obtain ⟨listed, undeclared⟩ := Walk.undeclared?_eq_some found
    refine ⟨members, rfl, listed, undeclared, ?_⟩
    rw [validate_undeclared strict (Schema.emptyObject?_eq_none_iff.mpr wellFormed) found]
    rfl

theorem Schema.refusesMember_map {τ : Type} (change : ρ → τ) {schema : Schema ρ} {name : String}
    {result : Except Error Value} :
    (schema.map change).RefusesMember options document name result ↔
      schema.RefusesMember options document name result := by
  obtain ⟨fields⟩ := schema
  simp only [Schema.RefusesMember, Schema.map, names_mapFields]

theorem Schema.Reordered.undeclared?_eq {schema other : Schema ρ}
    (reordered : schema.Reordered other) (members : List (String × Value)) :
    Walk.undeclared? schema.fields members = Walk.undeclared? other.fields members := by
  simp only [Walk.undeclared?, reordered.contains_eq]

theorem Schema.undeclared?_map {τ : Type} (change : ρ → τ) (schema : Schema ρ)
    (members : List (String × Value)) :
    Walk.undeclared? (schema.map change).fields members =
      Walk.undeclared? schema.fields members := by
  obtain ⟨fields⟩ := schema
  simp only [Walk.undeclared?, Schema.map, contains_mapFields]

/-! ## Reordered schemas -/

theorem ended_malformed_iff {schema : Schema (Resolver σ)} (unique : schema.UniqueNames)
    {result : Except Error Value}
    (ended : ((validate schema options document).run state).1 = result) :
    (∃ path fault, result = .error (.malformed path fault)) ↔ schema.Malformed := by
  subst ended
  constructor
  · rintro ⟨path, fault, reported⟩
    exact Schema.malformed_of_validate unique reported
  · intro malformed
    obtain ⟨nested, -, reported⟩ := malformed.exists_reported options.rootKey
    refine ⟨nested.path options.path, .emptyObject, ?_⟩
    rw [reported rfl]
    rfl

/-- The order in which fields are declared, at every level, decides about nothing but which
error is reported. With resolvers that keep no state, schemas that differ in it accept the
same documents and return the same for them; they are malformed together; and a member
that the outermost level does not declare is refused under both or neither. -/
theorem validate_reordered (schema : Schema.Distinct PureResolver) {other : Schema PureResolver}
    (reordered : schema.Reordered other) (options : Options) (document : Value) (state : σ) :
    ∃ first second,
      (validate (schema.map Resolver.ofPure) options document).run state = (first, state) ∧
      (validate (other.map Resolver.ofPure) options document).run state = (second, state) ∧
      ((∃ out, first = .ok out ∧ second = .ok out) ∨
        ∃ error moved, first = .error error ∧ second = .error moved) ∧
      (schema.Malformed ↔ other.Malformed) ∧
      ((∃ path fault, first = .error (.malformed path fault)) ↔
        ∃ path fault, second = .error (.malformed path fault)) ∧
      (options.strict = true → ∀ name, schema.RefusesMember options document name first ↔
        other.RefusesMember options document name second) := by
  have uniqueOther := reordered.uniqueNames schema.unique
  obtain ⟨first, ran, faults⟩ := run_validate_ofPure schema.unique options document state
  obtain ⟨second, ranOther, faultsOther⟩ := run_validate_ofPure uniqueOther options document state
  refine ⟨first, second, ran, ranOther, ?outcome, reordered.malformed_iff, ?malformed, ?refused⟩
  case outcome =>
    have accepted : (∃ out, first = .ok out) ↔ ∃ out, second = .ok out := by
      rw [accepted_iff_of_faults faults, accepted_iff_of_faults faultsOther,
        ← List.length_eq_zero_iff, ← List.length_eq_zero_iff,
        (reordered.findings options document).length_eq]
    cases first with
    | ok out =>
        obtain ⟨moved, rfl⟩ := accepted.mp ⟨out, rfl⟩
        exact .inl ⟨out, rfl, by rw [reordered.output_eq schema.unique ran ranOther]⟩
    | error error =>
        cases second with
        | ok moved => cases (accepted.mpr ⟨moved, rfl⟩).choose_spec
        | error moved => exact .inr ⟨error, moved, rfl, rfl⟩
  case malformed =>
    rw [ended_malformed_iff (Schema.uniqueNames_map _ schema.unique) (congrArg Prod.fst ran),
      ended_malformed_iff (Schema.uniqueNames_map _ uniqueOther) (congrArg Prod.fst ranOther),
      Schema.malformed_map, Schema.malformed_map, reordered.malformed_iff]
  case refused =>
    intro strict name
    have onFirst := Schema.refusesMember_iff strict (congrArg Prod.fst ran) name
    have onSecond := Schema.refusesMember_iff strict (congrArg Prod.fst ranOther) name
    rw [Schema.refusesMember_map, Schema.malformed_map] at onFirst onSecond
    simp only [onFirst, onSecond, Schema.undeclared?_map, reordered.malformed_iff,
      reordered.undeclared?_eq]

def PureResolver.reversed : PureResolver
  | .object members, _ => .ok (.object members.reverse)
  | value, _ => .ok value

def Schema.trip : Schema PureResolver :=
  ⟨[("legs", .array (.object ⟨[("marks", .array (.custom .reversed)), ("mode", .string)]⟩)),
    ("tags", .array (.custom .reversed))]⟩

def Schema.tripTagsFirst : Schema PureResolver :=
  ⟨[("tags", .array (.custom .reversed)),
    ("legs", .array (.object ⟨[("mode", .string), ("marks", .array (.custom .reversed))]⟩))]⟩

def trip (mark : Value) : Value :=
  .object [("tags", .array [mark]),
    ("legs", .array [.object [("mode", .string "rail"), ("marks", .array [mark])]])]

/-- The marks are turned around under either order; what is missing first differs. -/
theorem validate_reordered_trip :
    let mark : Value := .object [("x", .bool true), ("y", .bool false)]
    let turned : Value := .object [("y", .bool false), ("x", .bool true)]
    Schema.trip.Reordered .tripTagsFirst ∧ Schema.trip.UniqueNames ∧
      (validate (Schema.trip.map Resolver.ofPure) ⟨true, none⟩ (trip mark)).run () =
        (.ok (trip turned), ()) ∧
      (validate (Schema.tripTagsFirst.map Resolver.ofPure) ⟨true, none⟩ (trip mark)).run () =
        (.ok (trip turned), ()) ∧
      (validate (Schema.trip.map Resolver.ofPure) ⟨true, none⟩ (.object [])).run () =
        (.error (.rejected (.missing "legs")), ()) ∧
      (validate (Schema.tripTagsFirst.map Resolver.ofPure) ⟨true, none⟩ (.object [])).run () =
        (.error (.rejected (.missing "tags")), ()) := by
  intro mark turned
  have reordered : Schema.trip.Reordered .tripTagsFirst :=
    .level (.swap _ _ _) (.cons (.array .custom)
      (.cons (.array (.object (.level (.swap _ _ _)
        (.cons (.item .scalar) (.cons (.array .custom) .nil))))) .nil))
  have unique : Schema.trip.UniqueNames := by decide
  have accepted : (validate (Schema.trip.map Resolver.ofPure) ⟨true, none⟩ (trip mark)).run () =
      (.ok (trip turned), ()) := rfl
  obtain ⟨first, second, ran, moved, outcome, -⟩ :=
    validate_reordered ⟨Schema.trip, unique⟩ reordered ⟨true, none⟩ (trip mark) ()
  cases accepted.symm.trans ran
  rcases outcome with ⟨out, here, there⟩ | ⟨error, -, failed, -⟩
  · cases here
    cases there
    exact ⟨reordered, unique, accepted, moved, rfl, rfl⟩
  · cases failed

end DocShape
