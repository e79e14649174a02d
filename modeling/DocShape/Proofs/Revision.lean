import DocShape.Proofs.Idempotence

/-! Documents without some of their members. A schema leads to the objects it
declares; there a revision leaves out the members that the schema does not declare,
or those that it declares and that are null. No check other than that of the names
looks at a member of the first kind, and none tells one of the second kind from one
that is not there, so that leaving them out shows nowhere but in what is handed back. -/

set_option autoImplicit false

namespace DocShape

open Json (Value)

variable {σ ρ : Type}

namespace Json.Value

def mapMembers (change : List (String × Value) → List (String × Value)) : Value → Value
  | .object members => .object (change members)
  | other => other

def mapItems (change : Value → Value) : Value → Value
  | .array items => .array (items.map change)
  | other => other

@[simp] theorem mapMembers_eq_null_iff
    {change : List (String × Value) → List (String × Value)} {value : Value} :
    value.mapMembers change = .null ↔ value = .null := by
  cases value <;> simp [mapMembers]

@[simp] theorem mapItems_eq_null_iff {change : Value → Value} {value : Value} :
    value.mapItems change = .null ↔ value = .null := by
  cases value <;> simp [mapItems]

end Json.Value

/-- Which members of an object are left out. -/
structure Revision where
  dropsUndeclared : Bool
  dropsNull : Bool

mutual

def ItemKind.revise (rule : Revision) : ItemKind ρ → Value → Value
  | .scalar _, value => value
  | .object ⟨declared⟩, value =>
      value.mapMembers (Entries.revise fun name value => reviseMember rule declared name value)
  | .custom _, value => value

def FieldKind.revise (rule : Revision) : FieldKind ρ → Value → Value
  | .item kind, value => kind.revise rule value
  | .array element, value => value.mapItems fun item => element.revise rule item

/-- What becomes of a member. One that is kept is revised in its turn, if it is declared. -/
def reviseMember (rule : Revision) : List (String × Field ρ) → String → Value → Option Value
  | [], _, value => if rule.dropsUndeclared then none else some value
  | (name, ⟨kind, _⟩) :: rest, key, value =>
      if name = key then
        if rule.dropsNull && value.isNull then none else some (kind.revise rule value)
      else reviseMember rule rest key value

end

def reviseMembers (rule : Revision) (declared : List (String × Field ρ))
    (members : List (String × Value)) : List (String × Value) :=
  Entries.revise (reviseMember rule declared) members

private theorem ItemKind.revise_object (rule : Revision) (declared : List (String × Field ρ))
    (value : Value) :
    (ItemKind.object ⟨declared⟩).revise rule value =
      value.mapMembers (reviseMembers rule declared) := by
  rw [ItemKind.revise]
  rfl

/-- The document without the members that the rule drops, in every object that lies
where the schema declares one. All other values stay as they are. -/
def Schema.revise (rule : Revision) (schema : Schema ρ) (document : Value) : Value :=
  (ItemKind.object schema).revise rule document

/-- What is null stays null, and nothing else becomes null. -/
theorem FieldKind.revise_eq_null_iff {rule : Revision} {kind : FieldKind ρ} {value : Value} :
    kind.revise rule value = .null ↔ value = .null := by
  cases kind with
  | array element => simp [FieldKind.revise]
  | item kind =>
      cases kind with
      | object schema =>
          obtain ⟨declared⟩ := schema
          simp [FieldKind.revise, ItemKind.revise]
      | scalar | custom => simp [FieldKind.revise, ItemKind.revise]

private theorem ItemKind.isNull_revise (rule : Revision) (kind : ItemKind ρ) (value : Value) :
    (kind.revise rule value).isNull = value.isNull := by
  have same : (FieldKind.item kind).revise rule value = .null ↔ value = .null :=
    FieldKind.revise_eq_null_iff
  rw [Bool.eq_iff_iff, Value.isNull_iff, Value.isNull_iff]
  exact same

/-! ## Revising one object -/

theorem reviseMember_eq (rule : Revision) (declared : List (String × Field ρ)) (key : String)
    (value : Value) :
    reviseMember rule declared key value =
      match Entries.get? key declared with
      | some field =>
          if rule.dropsNull && value.isNull then none else some (field.kind.revise rule value)
      | none => if rule.dropsUndeclared then none else some value := by
  induction declared with
  | nil => rfl
  | cons head rest ih =>
      obtain ⟨name, ⟨kind, optional⟩⟩ := head
      by_cases here : name = key
      · simp [reviseMember, Entries.get?, here]
      · simp [reviseMember, Entries.get?, here, ih]

section

variable {rule : Revision} {declared : List (String × Field ρ)} {name : String} {field : Field ρ}
  {members : List (String × Value)} {value : Value}

private theorem reviseMember_of_held (found : Entries.get? name declared = some field)
    (held : value ≠ .null) :
    reviseMember rule declared name value = some (field.kind.revise rule value) := by
  have notNull : value.isNull = false := by
    rw [Bool.eq_false_iff]
    exact mt Value.isNull_iff.mp held
  simp [reviseMember_eq, found, notNull]

/-- A declared name is looked up after the revision as before it. Where null members are
dropped, no other member of that name may come to light. -/
theorem get?_reviseMembers (found : Entries.get? name declared = some field)
    (distinct : rule.dropsNull = true → (Entries.names members).Nodup) :
    Entries.get? name (reviseMembers rule declared members) =
      (Entries.get? name members).bind (reviseMember rule declared name) := by
  apply Entries.get?_revise
  cases drops : rule.dropsNull with
  | true => exact .inl (distinct drops)
  | false => exact .inr fun held => by simp [reviseMember_eq, found, drops]

private theorem absent_reviseMembers (found : Entries.get? name declared = some field)
    (distinct : rule.dropsNull = true → (Entries.names members).Nodup)
    (absent : Absent (Entries.get? name members)) :
    Absent (Entries.get? name (reviseMembers rule declared members)) := by
  rw [get?_reviseMembers found distinct]
  rcases absent with missing | isNull
  · exact .inl (by rw [missing, Option.bind_none])
  · rw [isNull, Option.bind_some, reviseMember_eq, found]
    cases drops : rule.dropsNull with
    | true => exact .inl rfl
    | false => exact .inr (congrArg some (FieldKind.revise_eq_null_iff.mpr rfl))

private theorem get?_reviseMembers_of_held (found : Entries.get? name declared = some field)
    (distinct : rule.dropsNull = true → (Entries.names members).Nodup)
    (present : Entries.get? name members = some value) (held : value ≠ .null) :
    Entries.get? name (reviseMembers rule declared members) =
      some (field.kind.revise rule value) := by
  rw [get?_reviseMembers found distinct, present, Option.bind_some,
    reviseMember_of_held found held]

private theorem reviseMembers_insert (found : Entries.get? name declared = some field)
    (present : Entries.get? name members = some value) (held : value ≠ .null) {checked : Value}
    (checkedHeld : checked ≠ .null) :
    reviseMembers rule declared (Entries.insert name checked members) =
      Entries.insert name (field.kind.revise rule checked)
        (reviseMembers rule declared members) := by
  apply Entries.revise_insert (reviseMember_of_held found checkedHeld)
  intro other same
  cases present.symm.trans same
  rw [reviseMember_of_held found held]
  exact Option.some_ne_none _

/-- The undeclared members are dropped, or they are all left and in their order. -/
theorem undeclared?_reviseMembers (rule : Revision) (declared : List (String × Field ρ))
    (members : List (String × Value)) :
    Walk.undeclared? declared (reviseMembers rule declared members) =
      if rule.dropsUndeclared then none else Walk.undeclared? declared members := by
  induction members with
  | nil => exact (ite_self _).symm
  | cons head rest ih =>
      obtain ⟨key, value⟩ := head
      simp only [Walk.undeclared?, reviseMembers] at ih ⊢
      rw [Entries.revise_cons, reviseMember_eq, Entries.names_cons, List.find?_cons]
      cases known : Entries.get? key declared with
      | none =>
          have stray : Entries.contains key declared = false := by simp [Entries.contains, known]
          cases drops : rule.dropsUndeclared <;> simp [drops, stray, ih]
      | some field =>
          have declares : Entries.contains key declared = true := by simp [Entries.contains, known]
          cases rule.dropsNull && value.isNull <;> simp [declares, ih]

end

/-! ## Walking through what is left -/

namespace Walk

/-- What follows a walk matters only for what the walk can hand over. -/
theorem bind_congr_of_yields {α β : Type} {walk : Walk σ α} {next other : α → Walk σ β}
    (agree : ∀ state out final, Yields walk state out final → next out = other out) :
    walk >>= next = walk >>= other := by
  apply ExceptT.ext
  apply StateT.ext
  intro state
  rw [run_bind, run_bind]
  rcases ended : walk.run.run state with ⟨error | out, reached⟩
  · rfl
  · simp only [agree state out reached ended]

private theorem held_of_yields_field {strict : Bool} {kind : FieldKind (Resolver σ)}
    {value out : Value} {path : String} {state final : σ} (held : value ≠ .null)
    (accepted : Yields (field strict kind value path) state out final) : out ≠ .null := by
  cases kind with
  | array element =>
      cases value with
      | array values =>
          obtain ⟨outs, -, rfl⟩ := yields_wrap_iff.mp accepted
          exact Value.noConfusion
      | null | bool | number | string | object => exact absurd accepted not_yields_reject
  | item kind =>
      cases kind with
      | scalar kind =>
          simp only [field, item] at accepted
          split at accepted
          · obtain ⟨rfl, -⟩ := yields_pure_iff.mp accepted
            exact held
          · exact absurd accepted not_yields_reject
      | object schema =>
          cases value with
          | object members =>
              obtain ⟨outs, -, rfl⟩ := yields_wrap_iff.mp accepted
              exact Value.noConfusion
          | null | bool | number | string | array => exact absurd accepted not_yields_reject
      | custom resolver =>
          obtain ⟨answer, reached, -, returned⟩ := yields_bind_iff.mp accepted
          obtain ⟨rfl, -⟩ := yields_pure_iff.mp returned
          exact held

/-- Where the undeclared members are dropped, a strict walk finds none to refuse, as a
lenient walk through the whole object does. -/
theorem object_revise {rule : Revision} {strict : Bool}
    {declared : List (String × Field (Resolver σ))} {members : List (String × Value)}
    {path : String}
    (inside : fields strict declared (reviseMembers rule declared members) path =
      reviseMembers rule declared <$>
        fields (strict && !rule.dropsUndeclared) declared members path) :
    object strict ⟨declared⟩ (reviseMembers rule declared members) path =
      reviseMembers rule declared <$>
        object (strict && !rule.dropsUndeclared) ⟨declared⟩ members path := by
  have sought : (if strict then if rule.dropsUndeclared then none else undeclared? declared members
      else none) =
      if strict && !rule.dropsUndeclared then undeclared? declared members else none := by
    cases strict <;> cases rule.dropsUndeclared <;> rfl
  rw [object, object, undeclared?_reviseMembers, sought]
  split
  · rfl
  · exact inside

mutual

private theorem item_revise (rule : Revision) (strict : Bool) : (kind : ItemKind (Resolver σ)) →
    kind.UniqueNames → ∀ value, (rule.dropsNull = true → value.UniqueNames) → ∀ path,
    item strict kind (kind.revise rule value) path =
      kind.revise rule <$> item (strict && !rule.dropsUndeclared) kind value path
  | .scalar kind, _, value, _, path => by
      by_cases admitted : kind.admits value = true <;> simp [item, ItemKind.revise, admitted]
  | .object ⟨declared⟩, unique, value, distinct, path => by
      cases value with
      | object members =>
          have inside := object_revise (fields_revise rule strict declared unique.1 declared
            unique.1 unique.2 (List.Subset.refl _) members
            (fun drops => ⟨(distinct drops).1, .of_object (distinct drops)⟩) path)
          simp [ItemKind.revise_object, Value.mapMembers, item, inside]
      | null | bool | number | string | array => rfl
  | .custom resolver, _, value, _, path => by
      simp [item, ItemKind.revise]

private theorem field_revise (rule : Revision) (strict : Bool) : (kind : FieldKind (Resolver σ)) →
    kind.UniqueNames → ∀ value, (rule.dropsNull = true → value.UniqueNames) → ∀ path,
    field strict kind (kind.revise rule value) path =
      kind.revise rule <$> field (strict && !rule.dropsUndeclared) kind value path
  | .item (.custom resolver), _, value, _, path => by
      simp [field, FieldKind.revise, ItemKind.revise]
  | .item (.scalar kind), unique, value, distinct, path =>
      item_revise rule strict (.scalar kind) unique value distinct path
  | .item (.object schema), unique, value, distinct, path =>
      item_revise rule strict (.object schema) unique value distinct path
  | .array element, unique, value, distinct, path => by
      cases value with
      | array values =>
          have each (item) (listed : item ∈ values) (drops : rule.dropsNull = true) :
              item.UniqueNames :=
            Value.uniqueNames_array_iff.mp (distinct drops) item listed
          have inside := items_map (element.isNull_revise rule) values
            (fun item listed => item_revise rule strict element unique item (each item listed))
            path 0
          simp [FieldKind.revise, Value.mapItems, field, inside]
      | null | bool | number | string | object => rfl

private theorem fields_revise (rule : Revision) (strict : Bool)
    (declared : List (String × Field (Resolver σ))) (known : (Entries.names declared).Nodup) :
    (rest : List (String × Field (Resolver σ))) → (Entries.names rest).Nodup →
    UniqueNamesIn rest → rest ⊆ declared → ∀ members,
    (rule.dropsNull = true → (Entries.names members).Nodup ∧ UniqueDeclared rest members) → ∀ path,
    fields strict rest (reviseMembers rule declared members) path =
      reviseMembers rule declared <$> fields (strict && !rule.dropsUndeclared) rest members path
  | [], _, _, _, members, _, path => by
      simp [fields]
  | (name, ⟨kind, optional⟩) :: rest, once, unique, within, members, distinct, path => by
      rw [Entries.names_cons, List.nodup_cons] at once
      obtain ⟨here, later⟩ := List.cons_subset.mp within
      have found := Entries.get?_of_mem known here
      have others := fields_revise rule strict declared known rest once.2 unique.2 later
      have sole (drops : rule.dropsNull = true) := (distinct drops).1
      rcases absent_or_present (Entries.get? name members) with absent | ⟨value, present, held⟩
      · rw [fields_cons_absent absent, fields_cons_absent (absent_reviseMembers found sole absent)]
        split
        · refine others members (fun drops => ⟨sole drops, ?_⟩) path
          exact fun key listed => (distinct drops).2 key (List.mem_cons_of_mem _ listed)
        · rfl
      · have stillHeld : kind.revise rule value ≠ .null := mt FieldKind.revise_eq_null_iff.mp held
        have stillPresent := get?_reviseMembers_of_held found sole present held
        have walked := field_revise rule strict kind unique.1 value
          (fun drops => (distinct drops).2 name List.mem_cons_self value present)
          (KeyPath.join path name)
        rw [fields_cons_present present held, fields_cons_present stillPresent stillHeld, walked]
        simp only [bind_map_left, map_bind]
        -- What is stored is revised by the same field that it was checked against.
        apply bind_congr_of_yields
        intro state checked final accepted
        have checkedHeld := held_of_yields_field held accepted
        rw [← reviseMembers_insert found present held checkedHeld]
        apply others
        intro drops
        exact ⟨Entries.nodup_names_insert (sole drops), (distinct drops).2.insert once.1 checked⟩

end

end Walk

private theorem walkDocument_revise {schema : Schema (Resolver σ)} (unique : schema.UniqueNames)
    (rule : Revision) (strict : Bool) (rootKey : Option String) {document : Value}
    (distinct : rule.dropsNull = true → document.UniqueNames) :
    walkDocument schema ⟨strict, rootKey⟩ (schema.revise rule document) =
      schema.revise rule <$>
        walkDocument schema ⟨strict && !rule.dropsUndeclared, rootKey⟩ document := by
  obtain ⟨declared⟩ := schema
  cases document with
  | object members =>
      have inside (path : String) := Walk.object_revise (Walk.fields_revise rule strict declared
        unique.1 declared unique.1 unique.2 (List.Subset.refl _) members
        (fun drops => ⟨(distinct drops).1, .of_object (distinct drops)⟩) path)
      simp [Schema.revise, ItemKind.revise_object, Value.mapMembers, walkDocument, inside,
        Options.path]
  | null | bool | number | string | array => rfl

/-- A validation of what is left ends as one of the whole document, in the same error or
with what is left of what that one returns. It may refuse undeclared members of which
none is left. -/
theorem validate_revise (schema : Schema.Distinct (Resolver σ)) (rule : Revision)
    (strict : Bool) (rootKey : Option String) {document : Value}
    (distinct : rule.dropsNull = true → document.UniqueNames) (state : σ) :
    let whole :=
      (validate schema ⟨strict && !rule.dropsUndeclared, rootKey⟩ document).run state
    (validate schema ⟨strict, rootKey⟩ (schema.revise rule document)).run state =
      (whole.1.map (schema.revise rule), whole.2) := by
  intro whole
  have search (strict : Bool) (first : Option String)
      (listed : schema.emptyObject? (rootKey.getD "") = first) :
      schema.emptyObject? (Options.path ⟨strict, rootKey⟩) = first := listed
  cases empty : schema.emptyObject? (rootKey.getD "") with
  | some path =>
      simp only [whole, validate_malformed (search _ _ empty)]
      rfl
  | none =>
      simp only [whole, validate_wellFormed (search _ _ empty),
        walkDocument_revise schema.unique rule strict rootKey distinct]
      rw [ExceptT.run_map, StateT.run_map]
      rfl

/-! ## Members that are not declared -/

/-- The document without the members that are not declared, in every object that
lies where the schema declares one. All other values stay as they are. -/
def Schema.prune (schema : Schema ρ) (document : Value) : Value :=
  schema.revise { dropsUndeclared := true, dropsNull := false } document

/-- To validate strictly what pruning leaves of a document is to validate the
document leniently: the same error ends both, or both accept and what the strict
one returns is what pruning leaves of the other's. -/
theorem validate_prune (schema : Schema.Distinct (Resolver σ)) (rootKey : Option String)
    (document : Value) (state : σ) :
    let lenient := (validate schema ⟨false, rootKey⟩ document).run state
    (validate schema ⟨true, rootKey⟩ (schema.prune document)).run state =
      (lenient.1.map schema.prune, lenient.2) :=
  validate_revise schema { dropsUndeclared := true, dropsNull := false } true rootKey
    (fun drops => absurd drops Bool.false_ne_true) state

/-- Turns the members of an object around, and counts what it was asked about. -/
def Resolver.turning : Resolver Nat := fun value _ count =>
  match value with
  | .object members => (.ok (.object members.reverse), count + 1)
  | other => (.ok other, count + 1)

def Schema.basket : Schema (Resolver Nat) :=
  ⟨[("owner", .object ⟨[("name", .string)]⟩), ("marks", .array (.custom .turning)),
    ("lines", .array (.object ⟨[("sum", .number)]⟩))]⟩

def basket (mark : Value) : Value :=
  .object [("note", .null),
    ("lines", .array [.object [("tax", .null), ("sum", .number (.integer 5))]]),
    ("owner", .object [("name", .string "Ada"), ("age", .string "old")]), ("marks", .array [mark])]

def prunedBasket (mark : Value) : Value :=
  .object [("lines", .array [.object [("sum", .number (.integer 5))]]),
    ("owner", .object [("name", .string "Ada")]), ("marks", .array [mark])]

/-- The mark is left whole, and the one that its resolver returned is kept. -/
theorem validate_prune_basket :
    let mark : Value := .object [("x", .null), ("y", .bool true)]
    let turned : Value := .object [("y", .bool true), ("x", .null)]
    Schema.basket.UniqueNames ∧
      Schema.basket.prune (basket mark) = prunedBasket mark ∧
      Schema.basket.prune (basket turned) = prunedBasket turned ∧
      (validate Schema.basket ⟨false, some "body"⟩ (basket mark)).run 0 =
        (.ok (basket turned), 1) ∧
      (validate Schema.basket ⟨true, some "body"⟩ (prunedBasket mark)).run 0 =
        (.ok (prunedBasket turned), 1) := by
  intro mark turned
  have unique : Schema.basket.UniqueNames := by decide
  have lenient : (validate Schema.basket ⟨false, some "body"⟩ (basket mark)).run 0 =
      (.ok (basket turned), 1) := rfl
  have strict := validate_prune ⟨Schema.basket, unique⟩ (some "body") (basket mark) 0
  rw [lenient] at strict
  exact ⟨unique, rfl, rfl, lenient, strict⟩

/-! ## Declared members that are null -/

/-- The document without the declared members that are null, in every object that lies
where the schema declares one. All other values stay as they are, null items of
arrays and undeclared members among them. -/
def Schema.dropNull (schema : Schema ρ) (document : Value) : Value :=
  schema.revise { dropsUndeclared := false, dropsNull := true } document

/-- A declared member that is null is as good as absent. Without such members a
document ends in the same error as with them, or both are accepted and what comes
of the one is what comes of the other without its declared null members. -/
theorem validate_dropNull (schema : Schema.Distinct (Resolver σ)) (options : Options)
    (document : Value.Distinct) (state : σ) :
    let whole := (validate schema options document).run state
    (validate schema options (schema.dropNull document)).run state =
      (whole.1.map schema.dropNull, whole.2) := by
  have ended := validate_revise schema { dropsUndeclared := false, dropsNull := true }
    options.strict options.rootKey (fun _ => document.property) state
  simp only [Bool.not_false, Bool.and_true] at ended
  exact ended

def Schema.booking : Schema (Resolver Nat) :=
  ⟨[("note", .withOptional true .string), ("marks", .array (.custom .turning)),
    ("rooms", .array (.object ⟨[("tag", .withOptional true (.custom .turning)),
      ("price", .number)]⟩))]⟩

def booking (mark : Value) : Value :=
  .object [
    ("rooms", .array [.object [("view", .null), ("tag", .null), ("price", .number (.integer 5))]]),
    ("note", .null), ("remark", .null), ("marks", .array [mark])]

def bookingWithoutNull (mark : Value) : Value :=
  .object [("rooms", .array [.object [("view", .null), ("price", .number (.integer 5))]]),
    ("remark", .null), ("marks", .array [mark])]

/-- The view and the remark are not declared, and the mark is of custom kind: what is
null there stays. -/
theorem validate_dropNull_booking :
    let mark : Value := .object [("x", .null), ("y", .bool true)]
    let turned : Value := .object [("y", .bool true), ("x", .null)]
    Schema.booking.UniqueNames ∧ (booking mark).UniqueNames ∧
      Schema.booking.dropNull (booking mark) = bookingWithoutNull mark ∧
      Schema.booking.dropNull (booking turned) = bookingWithoutNull turned ∧
      (validate Schema.booking {} (booking mark)).run 0 = (.ok (booking turned), 1) ∧
      (validate Schema.booking {} (bookingWithoutNull mark)).run 0 =
        (.ok (bookingWithoutNull turned), 1) := by
  intro mark turned
  have unique : Schema.booking.UniqueNames := by decide
  have distinct : (booking mark).UniqueNames := by decide
  have whole : (validate Schema.booking {} (booking mark)).run 0 = (.ok (booking turned), 1) := rfl
  have without := validate_dropNull ⟨Schema.booking, unique⟩ {} ⟨booking mark, distinct⟩ 0
  rw [whole] at without
  exact ⟨unique, distinct, rfl, rfl, whole, without⟩

end DocShape
