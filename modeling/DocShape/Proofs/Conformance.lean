import DocShape.Proofs.Findings

/-! What it is for a document to conform to a schema. The order of declaration
and the order of the members do not matter to it; where resolvers keep no state,
a validation accepts what conforms and nothing else. -/

set_option autoImplicit false

namespace DocShape

open Json (Value)

variable {σ : Type}

mutual

inductive ItemConforms (strict : Bool) : ItemKind PureResolver → Value → String → Prop where
  | string {text path : String} : ItemConforms strict (.scalar .string) (.string text) path
  | number {value : Json.Number} {path : String} :
      ItemConforms strict (.scalar .number) (.number value) path
  | bool {truth : Bool} {path : String} : ItemConforms strict (.scalar .bool) (.bool truth) path
  | object {schema : Schema PureResolver} {members : List (String × Value)} {path : String}
      (conforms : ObjectConforms strict schema members path) :
      ItemConforms strict (.object schema) (.object members) path
  | custom {resolver : PureResolver} {value answer : Value} {path : String}
      (answered : resolver value path = .ok answer) (same : answer.sameValue value = true) :
      ItemConforms strict (.custom resolver) value path

inductive FieldConforms (strict : Bool) : FieldKind PureResolver → Value → String → Prop where
  | item {kind : ItemKind PureResolver} {value : Value} {path : String}
      (conforms : ItemConforms strict kind value path) :
      FieldConforms strict (.item kind) value path
  | array {element : ItemKind PureResolver} {items : List Value} {path : String}
      (noNull : ∀ item ∈ items, item ≠ .null)
      (each : ∀ index item, items[index]? = some item →
        ItemConforms strict element item (KeyPath.item path index)) :
      FieldConforms strict (.array element) (.array items) path

/-- The member of a declared name, if there is one, is as the field demands. -/
inductive MemberConforms (strict : Bool) : Field PureResolver → Option Value → String → Prop where
  | absent {kind : FieldKind PureResolver} {member : Option Value} {path : String}
      (absent : Absent member) : MemberConforms strict ⟨kind, true⟩ member path
  | present {kind : FieldKind PureResolver} {optional : Bool} {value : Value} {path : String}
      (notNull : value ≠ .null) (conforms : FieldConforms strict kind value path) :
      MemberConforms strict ⟨kind, optional⟩ (some value) path

inductive ObjectConforms (strict : Bool) :
    Schema PureResolver → List (String × Value) → String → Prop where
  | declared {declared : List (String × Field PureResolver)} {members : List (String × Value)}
      {path : String}
      (known : strict = true → ∀ name ∈ Entries.names members, name ∈ Entries.names declared)
      (each : ∀ name field, (name, field) ∈ declared →
        MemberConforms strict field (Entries.get? name members) (KeyPath.join path name)) :
      ObjectConforms strict ⟨declared⟩ members path

end

/-! ## Conformance leaves nothing to be found -/

theorem itemConforms_scalar_iff {strict : Bool} {kind : Scalar} {value : Value} {path : String} :
    ItemConforms strict (.scalar kind) value path ↔ kind.admits value = true := by
  constructor
  · intro conforms
    cases conforms <;> rfl
  · intro admitted
    cases kind <;> cases value <;> simp only [Scalar.admits, Bool.false_eq_true] at admitted
    · exact .string
    · exact .number
    · exact .bool

private theorem itemConforms_custom_iff {strict : Bool} {resolver : PureResolver} {value : Value}
    {path : String} :
    ItemConforms strict (.custom resolver) value path ↔
      Call.error? ⟨path, value, resolver value path⟩ = none := by
  rw [Call.error?_eq_none_iff]
  constructor
  · intro conforms
    cases conforms with
    | custom answered same => exact ⟨_, answered, same⟩
  · intro accepted
    obtain ⟨answer, answered, same⟩ := accepted
    exact .custom answered same

namespace Plan

private theorem findings_undeclared_eq_nil_iff (declared : List (String × Field PureResolver))
    (members : List (String × Value)) (path : String) :
    findings path (undeclared declared members) = [] ↔
      ∀ name ∈ Entries.names members, name ∈ Entries.names declared := by
  simp [findings, undeclared, List.filterMap_map, Step.finding?, Function.comp_def,
    Entries.contains_iff]

private theorem findings_items_eq_nil_iff {plan : Value → List (Step PureResolver)} {start : Nat}
    {values : List Value} {path : String} :
    findings path (items plan start values) = [] ↔
      (∀ value ∈ values, value ≠ .null) ∧
      ∀ index value, values[index]? = some value →
        findings (KeyPath.item path (start + index)) (plan value) = [] := by
  induction values generalizing start with
  | nil => simp [items]
  | cons value rest ih =>
      rw [items, findings_append, findings_below, List.append_eq_nil_iff, ih]
      constructor
      · intro nothing
        obtain ⟨here, noNull, others⟩ := nothing
        have notNull : value ≠ .null := by
          intro isNull
          subst isNull
          simp [Value.isNull, findings, Step.refuse, Step.finding?] at here
        refine ⟨List.forall_mem_cons.mpr ⟨notNull, noNull⟩, ?_⟩
        intro index item found
        cases index with
        | zero =>
            cases found
            rwa [if_neg (mt Value.isNull_iff.mp notNull)] at here
        | succ index =>
            have later := others index item found
            rwa [Nat.add_right_comm] at later
      · intro sound
        obtain ⟨noNull, each⟩ := sound
        obtain ⟨notNull, noNull⟩ := List.forall_mem_cons.mp noNull
        refine ⟨?_, noNull, ?_⟩
        · rw [if_neg (mt Value.isNull_iff.mp notNull)]
          exact each 0 value rfl
        · intro index item found
          have later := each (index + 1) item found
          rwa [Nat.add_right_comm]

private theorem findings_field_item (strict : Bool) (kind : ItemKind PureResolver) (value : Value)
    (path : String) :
    findings path (field strict (.item kind) value) = findings path (item strict kind value) := by
  cases kind <;> rfl

private theorem findings_present_eq_nil_iff {strict : Bool} {kind : FieldKind PureResolver}
    {plan : Value → List (Step PureResolver)} {path : String}
    (agrees : ∀ value, findings path (plan value) = [] ↔ FieldConforms strict kind value path)
    (optional : Bool) (member : Option Value) :
    findings path (present plan optional member) = [] ↔
      MemberConforms strict ⟨kind, optional⟩ member path := by
  rcases absent_or_present member with absent | ⟨value, rfl, held⟩
  · rw [present_absent absent]
    cases optional with
    | true => exact iff_of_true rfl (.absent absent)
    | false =>
        refine iff_of_false (by simp [findings, Step.refuse, Step.finding?]) ?_
        intro conforms
        cases conforms with
        | present notNull _ => rcases absent with missing | isNull <;> simp_all
  · rw [present_some held, agrees]
    constructor
    · exact .present held
    · intro conforms
      cases conforms with
      | absent absent => rcases absent with missing | isNull <;> simp_all
      | present _ conforms => exact conforms

private theorem object_findings_eq_nil_iff {strict : Bool}
    {declared : List (String × Field PureResolver)} {members : List (String × Value)}
    {path : String}
    (each : findings path (fields strict declared members) = [] ↔
      ∀ name field, (name, field) ∈ declared →
        MemberConforms strict field (Entries.get? name members) (KeyPath.join path name)) :
    findings path (object strict ⟨declared⟩ members) = [] ↔
      ObjectConforms strict ⟨declared⟩ members path := by
  have known := findings_undeclared_eq_nil_iff declared members path
  rw [object, findings_append, List.append_eq_nil_iff, each]
  constructor
  · intro nothing
    obtain ⟨allKnown, each⟩ := nothing
    refine .declared ?_ each
    intro isStrict
    rw [if_pos isStrict] at allKnown
    exact known.mp allKnown
  · intro conforms
    cases conforms with
    | declared allKnown each =>
        refine ⟨?_, each⟩
        cases strict with
        | true => exact known.mpr (allKnown rfl)
        | false => rfl

mutual

private theorem item_findings_eq_nil_iff (strict : Bool) : (kind : ItemKind PureResolver) →
    ∀ value path, findings path (item strict kind value) = [] ↔
      ItemConforms strict kind value path
  | .scalar kind, value, path => by
      rw [itemConforms_scalar_iff, item]
      split
      · simp [*]
      · simp [*, findings, Step.refuse, Step.finding?]
  | .object ⟨declared⟩, value, path => by
      cases value with
      | object members =>
          have each := fields_findings_eq_nil_iff strict declared members path
          rw [item, object_findings_eq_nil_iff each]
          constructor
          · exact .object
          · intro conforms
            cases conforms with
            | object conforms => exact conforms
      | null | bool | number | string | array =>
          refine iff_of_false (by simp [item, findings, Step.refuse, Step.finding?]) ?_
          intro conforms
          cases conforms
  | .custom resolver, value, path => by
      rw [itemConforms_custom_iff]
      simp [item, findings, Step.consult, Step.finding?, KeyPath.render_nil]

private theorem field_findings_eq_nil_iff (strict : Bool) : (kind : FieldKind PureResolver) →
    ∀ value path, findings path (field strict kind value) = [] ↔
      FieldConforms strict kind value path
  | .item kind, value, path => by
      rw [findings_field_item, item_findings_eq_nil_iff strict kind]
      constructor
      · exact .item
      · intro conforms
        cases conforms with
        | item conforms => exact conforms
  | .array element, value, path => by
      cases value with
      | array values =>
          have each := item_findings_eq_nil_iff strict element
          simp only [field, findings_items_eq_nil_iff, each, Nat.zero_add]
          constructor
          · intro sound
            obtain ⟨noNull, each⟩ := sound
            exact .array noNull each
          · intro conforms
            cases conforms with
            | array noNull each => exact ⟨noNull, each⟩
      | null | bool | number | string | object =>
          refine iff_of_false (by simp [field, findings, Step.refuse, Step.finding?]) ?_
          intro conforms
          cases conforms

private theorem fields_findings_eq_nil_iff (strict : Bool) :
    (declared : List (String × Field PureResolver)) → ∀ members path,
    findings path (fields strict declared members) = [] ↔
      ∀ name field, (name, field) ∈ declared →
        MemberConforms strict field (Entries.get? name members) (KeyPath.join path name)
  | [], members, path => by simp [fields]
  | (name, ⟨kind, optional⟩) :: rest, members, path => by
      have here := findings_present_eq_nil_iff
        (fun value => field_findings_eq_nil_iff strict kind value (KeyPath.join path name))
      rw [fields, findings_append, findings_below, List.append_eq_nil_iff,
        fields_findings_eq_nil_iff strict rest, KeyPath.extend, here]
      constructor
      · intro nothing key field listed
        obtain ⟨conforms, others⟩ := nothing
        rcases List.mem_cons.mp listed with same | listed
        · cases same
          exact conforms
        · exact others key field listed
      · intro each
        refine ⟨each name ⟨kind, optional⟩ List.mem_cons_self, ?_⟩
        intro key field listed
        exact each key field (List.mem_cons_of_mem _ listed)

end

end Plan

theorem Schema.findings_eq_nil_iff {schema : Schema PureResolver} {options : Options}
    {document : Value} :
    schema.findings options document = [] ↔
      ¬ schema.Malformed ∧
      ∃ members, document = .object members ∧
        ObjectConforms options.strict schema members options.path := by
  rw [← schema.emptyObjects_eq_nil_iff options.path]
  cases listed : schema.emptyObjects options.path with
  | cons path paths => simp [Schema.findings, listed]
  | nil =>
      obtain ⟨declared⟩ := schema
      cases document with
      | object members =>
          have each :=
            Plan.fields_findings_eq_nil_iff options.strict declared members options.path
          simp [Schema.findings, listed, Plan.object_findings_eq_nil_iff each]
      | null | bool | number | string | array => simp [Schema.findings, listed]

/-- A validation accepts exactly the documents that conform to a schema in which
no nested object is without fields. -/
theorem validate_accepts_iff (schema : Schema.Distinct PureResolver) (options : Options)
    (document : Value) (state : σ) :
    (∃ out, ((validate (schema.map Resolver.ofPure) options document).run state).1 = .ok out) ↔
      ¬ schema.Malformed ∧
      ∃ members, document = .object members ∧
        ObjectConforms options.strict schema members options.path := by
  obtain ⟨result, ran, first⟩ := run_validate_ofPure schema.unique options document state
  rw [ran, ← Schema.findings_eq_nil_iff]
  exact accepted_iff_of_faults first

def PureResolver.label : PureResolver := fun value path =>
  match value with
  | .string text => .ok (.string text)
  | _ => .error ("no label at " ++ path)

def Schema.parcel : Schema PureResolver :=
  ⟨[("label", .custom .label), ("note", .withOptional true .string),
    ("parts", .array (.object ⟨[("weight", .number)]⟩))]⟩

def parcelMembers : List (String × Value) :=
  [("parts", .array [.object [("weight", .number (.integer 2))]]), ("note", .null),
    ("label", .string "P1")]

theorem validate_accepts_parcel :
    Schema.parcel.UniqueNames ∧
      (∃ out, ((validate (Schema.parcel.map Resolver.ofPure) ⟨true, none⟩
        (.object parcelMembers)).run ()).1 = .ok out) ∧
      ¬ Schema.parcel.Malformed ∧ ObjectConforms true Schema.parcel parcelMembers "" := by
  have unique : Schema.parcel.UniqueNames := by decide
  have accepted : ∃ out, ((validate (Schema.parcel.map Resolver.ofPure) ⟨true, none⟩
      (.object parcelMembers)).run ()).1 = .ok out := ⟨.object parcelMembers, rfl⟩
  obtain ⟨wellFormed, members, same, conforms⟩ :=
    (validate_accepts_iff ⟨Schema.parcel, unique⟩ ⟨true, none⟩ (.object parcelMembers) ()).mp
      accepted
  cases same
  exact ⟨unique, accepted, wellFormed, conforms⟩

end DocShape
