import DocShape.Proofs.Resolvers

/-! Root keys. Resolvers that do not look at paths are asked the same under every
root key, so that it shows only in what is reported, in front of each path. An
unnamed object at the outermost level is the exception: without a root key its
members read as if they were members of the document. -/

set_option autoImplicit false

namespace DocShape

open Json (Value)

variable {σ ρ : Type}

/-! ## Paths below a root key -/

namespace KeyPath

/-- A path as it reads under a root key. -/
def under (key path : String) : String :=
  key ++ "." ++ path

theorem append_ne_empty {before path : String} (notEmpty : path ≠ "") : before ++ path ≠ "" := by
  simp [notEmpty]

private theorem extend_append {path : String} (notEmpty : path ≠ "") (before : String)
    (segment : Segment) : extend (before ++ path) segment = before ++ extend path segment := by
  cases segment with
  | member name =>
      rw [extend, extend, join_of_ne_empty notEmpty, join_of_ne_empty (append_ne_empty notEmpty)]
      simp only [String.append_assoc]
  | item index => simp only [extend, item, String.append_assoc]

/-- What stands before a path that is not empty stays before all paths inside. -/
theorem render_append {path : String} (notEmpty : path ≠ "") (before : String)
    (location : Location) : render (before ++ path) location = before ++ render path location := by
  induction location generalizing path with
  | nil => rfl
  | cons segment rest ih =>
      rw [render_cons, render_cons, extend_append notEmpty]
      exact ih (extend_ne_empty notEmpty segment)

end KeyPath

/-- Starts at a member. If that one has no name, no member of it follows. -/
def Location.Rooted : Location → Prop
  | [] => False
  | .item _ :: _ => False
  | .member name :: rest => name = "" → ∀ inner further, rest ≠ .member inner :: further

theorem KeyPath.render_under {key : String} (notEmpty : key ≠ "") {location : Location}
    (rooted : location.Rooted) : render key location = under key (render "" location) := by
  cases location with
  | nil => exact rooted.elim
  | cons segment rest =>
      cases segment with
      | item index => exact rooted.elim
      | member name =>
          have onTop : extend "" (.member name) = name := rfl
          have below : extend key (.member name) = key ++ "." ++ name :=
            join_of_ne_empty notEmpty name
          rw [render_cons, render_cons, onTop, below, under]
          by_cases unnamed : name = ""
          · subst unnamed
            cases rest with
            | nil => rfl
            | cons second further =>
                cases second with
                | member inner => exact absurd rfl (rooted rfl inner further)
                | item index =>
                    have shifted : extend (key ++ "." ++ "") (.item index) =
                        key ++ "." ++ extend "" (.item index) := by
                      simp only [extend, item, String.append_assoc]
                    rw [render_cons, render_cons, shifted]
                    exact render_append (item_ne_empty "" index) (key ++ ".") further
          · exact render_append unnamed (key ++ ".") rest

/-! ## Where plans and searches lead -/

/-- No object field of the outermost level is without a name. -/
def Schema.NamesObjects (schema : Schema ρ) : Prop :=
  ∀ field, ("", field) ∈ schema.fields → ∀ nested, field.kind ≠ .item (.object nested)

namespace Plan

private theorem location_of_mem_field {strict : Bool} {kind : FieldKind ρ} {value : Value}
    {step : Step ρ} (noObject : ∀ nested, kind ≠ .item (.object nested))
    (listed : step ∈ field strict kind value) (inner : String) (further : Location) :
    step.location ≠ .member inner :: further := by
  cases kind with
  | item kind =>
      cases kind with
      | object nested => exact absurd rfl (noObject nested)
      | scalar kind =>
          rw [field, item] at listed
          split at listed
          · simp at listed
          · simp [List.mem_singleton.mp listed, Step.refuse]
          · simp
      | custom resolver =>
          rw [field] at listed
          simp [List.mem_singleton.mp listed, Step.consult]
  | array element =>
      cases value with
      | array values =>
          rw [field] at listed
          obtain ⟨offset, value, -, deeper, -, rfl⟩ := mem_items_iff.mp listed
          simp [Step.below]
      | null | bool | number | string | object =>
          rw [field] at listed
          · simp [List.mem_singleton.mp listed, Step.refuse]
          · simp

theorem rooted_of_mem {strict : Bool} {schema : Schema ρ} (named : schema.NamesObjects)
    {members : List (String × Value)} {step : Step ρ}
    (listed : step ∈ object strict schema members) : step.location.Rooted := by
  obtain ⟨declared⟩ := schema
  rw [object, List.mem_append] at listed
  rcases listed with listed | listed
  · split at listed
    · obtain ⟨name, -, rfl⟩ := List.mem_map.mp listed
      simp [Location.Rooted]
    · simp at listed
  · obtain ⟨name, kind, optional, declares, inner, planned, rfl⟩ := mem_fields_iff.mp listed
    intro unnamed member further
    subst unnamed
    rcases absent_or_present (Entries.get? "" members) with absent | ⟨value, found, held⟩
    · rw [present_absent absent] at planned
      split at planned
      · simp at planned
      · simp [List.mem_singleton.mp planned, Step.refuse]
    · rw [found, present_some held] at planned
      exact location_of_mem_field (named _ declares) planned member further

end Plan

mutual

private theorem ItemKind.emptyObject?_append (before : String) : (kind : ItemKind ρ) → ∀ path,
    path ≠ "" → kind.emptyObject? (before ++ path) = (kind.emptyObject? path).map (before ++ ·)
  | .scalar _, _, _ => rfl
  | .object ⟨[]⟩, _, _ => rfl
  | .object ⟨(name, ⟨kind, optional⟩) :: rest⟩, path, notEmpty =>
      emptyObjectIn?_append before ((name, ⟨kind, optional⟩) :: rest) path notEmpty
  | .custom _, _, _ => rfl

private theorem FieldKind.emptyObject?_append (before : String) : (kind : FieldKind ρ) → ∀ path,
    path ≠ "" → kind.emptyObject? (before ++ path) = (kind.emptyObject? path).map (before ++ ·)
  | .item kind, path, notEmpty => ItemKind.emptyObject?_append before kind path notEmpty
  | .array element, path, _ => by
      have inside : KeyPath.anyItem path ≠ "" := by simp [KeyPath.anyItem]
      rw [FieldKind.emptyObject?, FieldKind.emptyObject?,
        ← ItemKind.emptyObject?_append before element _ inside, KeyPath.anyItem, KeyPath.anyItem,
        String.append_assoc]

private theorem emptyObjectIn?_append (before : String) : (fields : List (String × Field ρ)) →
    ∀ path,
    path ≠ "" →
      emptyObjectIn? (before ++ path) fields = (emptyObjectIn? path fields).map (before ++ ·)
  | [], _, _ => rfl
  | (name, ⟨kind, _⟩) :: rest, path, notEmpty => by
      have inside : KeyPath.join path name ≠ "" := KeyPath.extend_ne_empty notEmpty (.member name)
      have shifted : KeyPath.join (before ++ path) name = before ++ KeyPath.join path name :=
        KeyPath.extend_append notEmpty before (.member name)
      rw [emptyObjectIn?, emptyObjectIn?, shifted,
        FieldKind.emptyObject?_append before kind _ inside,
        emptyObjectIn?_append before rest path notEmpty]
      cases kind.emptyObject? (KeyPath.join path name) <;> rfl

end

theorem FieldKind.emptyObject?_under {key : String} (notEmpty : key ≠ "") {name : String}
    {kind : FieldKind ρ} (named : name = "" → ∀ nested, kind ≠ .item (.object nested)) :
    kind.emptyObject? (KeyPath.join key name) =
      (kind.emptyObject? (KeyPath.join "" name)).map (KeyPath.under key) := by
  have onTop : KeyPath.join "" name = name := rfl
  rw [KeyPath.join_of_ne_empty notEmpty, onTop]
  by_cases unnamed : name = ""
  · subst unnamed
    cases kind with
    | item kind =>
        cases kind with
        | object nested => exact absurd rfl (named rfl nested)
        | scalar | custom => rfl
    | array element =>
        have shifted : KeyPath.anyItem (key ++ "." ++ "") = key ++ "." ++ KeyPath.anyItem "" := by
          simp only [KeyPath.anyItem, String.append_assoc]
        rw [FieldKind.emptyObject?, FieldKind.emptyObject?, shifted]
        exact ItemKind.emptyObject?_append (key ++ ".") element _ (by simp [KeyPath.anyItem])
  · exact FieldKind.emptyObject?_append (key ++ ".") kind name unnamed

theorem Schema.emptyObject?_under {key : String} (notEmpty : key ≠ "") {schema : Schema ρ}
    (named : schema.NamesObjects) :
    schema.emptyObject? key = (schema.emptyObject? "").map (KeyPath.under key) := by
  obtain ⟨fields⟩ := schema
  rw [Schema.emptyObject?, Schema.emptyObject?]
  induction fields with
  | nil => rfl
  | cons head rest ih =>
      obtain ⟨name, ⟨kind, optional⟩⟩ := head
      have here : name = "" → ∀ nested, kind ≠ .item (.object nested) := by
        intro unnamed
        subst unnamed
        exact named ⟨kind, optional⟩ List.mem_cons_self
      have others := ih fun field listed => named field (List.mem_cons_of_mem _ listed)
      rw [emptyObjectIn?, emptyObjectIn?, FieldKind.emptyObject?_under notEmpty here, others]
      cases kind.emptyObject? (KeyPath.join "" name) <;> rfl

/-! ## Runs under a root key -/

/-- The resolver answers alike at all paths. -/
def Resolver.IgnoresPath (resolver : Resolver σ) : Prop :=
  ∀ value path path', resolver value path = resolver value path'

def Violation.mapPath (change : String → String) : Violation → Violation
  | .wrongKind path expected actual => .wrongKind (change path) expected actual
  | .missing path => .missing (change path)
  | .unexpected path name => .unexpected (change path) name

/-- The error with another path, and all else as it was. -/
def Error.mapPath (change : String → String) : Error → Error
  | .rejected violation => .rejected (violation.mapPath change)
  | .malformed path fault => .malformed (change path) fault
  | .resolverAltered path => .resolverAltered (change path)
  | .resolverFailed path reason => .resolverFailed (change path) reason
  | .file fault => .file fault
  | .json fault => .json fault

def Call.mapPath (change : String → String) (call : Call) : Call :=
  { call with path := change call.path }

theorem Refusal.violation_mapPath (change : String → String) (refusal : Refusal) (path : String) :
    refusal.violation (change path) = (refusal.violation path).mapPath change := by
  cases refusal <;> rfl

theorem Call.error?_mapPath (change : String → String) (call : Call) :
    (call.mapPath change).error? = call.error?.map (Error.mapPath change) := by
  obtain ⟨path, value, answer | answer⟩ := call
  · rfl
  · simp only [Call.mapPath, Call.error?]
    split <;> rfl

theorem Plan.Runs.under {key : String} {steps : List (Step (Resolver σ))} {document : Value}
    {state final : σ} {calls : List Call} {result : Except Error Value}
    (runs : Plan.Runs "" steps document state calls result final)
    (rendered : ∀ step ∈ steps,
      KeyPath.render key step.location = KeyPath.under key (KeyPath.render "" step.location))
    (ignores : ∀ resolver ∈ Plan.consulted steps, resolver.IgnoresPath) :
    Plan.Runs key steps document state (calls.map (Call.mapPath (KeyPath.under key)))
      (result.mapError (Error.mapPath (KeyPath.under key))) final := by
  induction runs with
  | done => exact .done
  | @refused location refusal =>
      obtain ⟨here, -⟩ := List.forall_mem_cons.mp rendered
      change Plan.Runs key _ _ _ [] (.error (.rejected
        ((refusal.violation (KeyPath.render "" location)).mapPath (KeyPath.under key)))) _
      rw [← Refusal.violation_mapPath, ← here]
      exact .refused
  | @failed location resolver value _ _ _ _ _ answer error asked faulty =>
      obtain ⟨here, -⟩ := List.forall_mem_cons.mp rendered
      obtain ⟨ignoresHere, -⟩ := List.forall_mem_cons.mp ignores
      have moved := Call.error?_mapPath (KeyPath.under key)
        ⟨KeyPath.render "" location, value, answer⟩
      rw [faulty, Call.mapPath, ← here] at moved
      rw [ignoresHere value _ (KeyPath.render key location)] at asked
      change Plan.Runs key _ _ _ [⟨KeyPath.under key (KeyPath.render "" location), value, answer⟩]
        (.error (error.mapPath (KeyPath.under key))) _
      rw [← here]
      exact .failed asked moved
  | @answered location resolver value _ _ _ answer _ _ _ calls _ asked same _ ih =>
      obtain ⟨here, othersRendered⟩ := List.forall_mem_cons.mp rendered
      obtain ⟨ignoresHere, othersIgnore⟩ := List.forall_mem_cons.mp ignores
      rw [ignoresHere value _ (KeyPath.render key location)] at asked
      change Plan.Runs key _ _ _
        (⟨KeyPath.under key (KeyPath.render "" location), value, .ok answer⟩ ::
          calls.map (Call.mapPath (KeyPath.under key))) _ _
      rw [← here]
      exact .answered asked same (ih othersRendered othersIgnore)

/-- A root key adds itself and a dot in front of the path that is reported, and
changes nothing else; a document that is no object it names itself. -/
theorem validate_rootKey (schema : Schema.Distinct (Resolver σ)) (named : schema.NamesObjects)
    (ignores : ∀ resolver ∈ schema.resolvers, resolver.IgnoresPath) (key : String)
    (notEmpty : key ≠ "") (strict : Bool) (document : Value) (state : σ) :
    let bare := (validate schema ⟨strict, none⟩ document).run state
    let keyed := (validate schema ⟨strict, some key⟩ document).run state
    (schema.Malformed ∨ (∃ members, document = .object members) →
      keyed = (bare.1.mapError (Error.mapPath fun path => key ++ "." ++ path), bare.2)) ∧
    (¬ schema.Malformed → (∀ members, document ≠ .object members) →
      bare = (.error (.rejected (.wrongKind "$root" "object" document)), state) ∧
      keyed = (.error (.rejected (.wrongKind key "object" document)), state)) := by
  intro bare keyed
  have search : schema.emptyObject? key = (schema.emptyObject? "").map (KeyPath.under key) :=
    Schema.emptyObject?_under notEmpty named
  cases empty : schema.emptyObject? "" with
  | some path =>
      rw [empty] at search
      have malformed : schema.Malformed := by
        apply Classical.byContradiction
        intro wellFormed
        rw [Schema.emptyObject?_eq_none_iff.mpr wellFormed] at empty
        cases empty
      have onTop : schema.emptyObject? (Options.path ⟨strict, none⟩) = some path := empty
      have below : schema.emptyObject? (Options.path ⟨strict, some key⟩) =
        some (KeyPath.under key path) := search
      have onBare : bare = (.error (.malformed path .emptyObject), state) :=
        (Validates.malformed onTop).run_validate schema.unique
      have onKeyed : keyed = (.error (.malformed (KeyPath.under key path) .emptyObject), state) :=
        (Validates.malformed below).run_validate schema.unique
      rw [onBare, onKeyed]
      exact ⟨fun _ => rfl, fun wellFormed => absurd malformed wellFormed⟩
  | none =>
      rw [empty] at search
      have onTop : schema.emptyObject? (Options.path ⟨strict, none⟩) = none := empty
      have below : schema.emptyObject? (Options.path ⟨strict, some key⟩) = none := search
      have wellFormed : ¬ schema.Malformed := Schema.emptyObject?_eq_none_iff.mp empty
      refine ⟨?inside, ?root⟩
      case inside =>
        intro object
        obtain ⟨members, rfl⟩ := object.resolve_left wellFormed
        let plan := Plan.object strict schema.toSchema members
        obtain ⟨calls, result, final, runs⟩ := Plan.exists_runs "" plan (.object members) state
        have rendered (step) (listed : step ∈ plan) :=
          KeyPath.render_under notEmpty (Plan.rooted_of_mem named listed)
        have ignored (resolver) (listed : resolver ∈ Plan.consulted plan) :=
          ignores resolver (schema.consulted_object strict members listed)
        have onBare : bare = (result, final) :=
          (Validates.performed onTop runs).run_validate schema.unique
        have onKeyed : keyed = (result.mapError (Error.mapPath (KeyPath.under key)), final) :=
          (Validates.performed below (runs.under rendered ignored)).run_validate schema.unique
        rw [onBare, onKeyed]
        rfl
      case root =>
        intro _ other
        have place : Options.documentPlace ⟨strict, some key⟩ = key := by
          simp [Options.documentPlace, Options.path, notEmpty]
        have onKeyed : keyed = (.error (.rejected (.wrongKind
            (Options.documentPlace ⟨strict, some key⟩) "object" document)), state) :=
          (Validates.notObject below other).run_validate schema.unique
        rw [place] at onKeyed
        exact ⟨(Validates.notObject onTop other).run_validate schema.unique, onKeyed⟩

def Resolver.unit : Resolver Nat := fun value _ count =>
  match value with
  | .string "m" => (.ok value, count + 1)
  | _ => (.error "unknown unit", count)

/-- The array has no name; an object in its place would not do. -/
def Schema.matrix : Schema (Resolver Nat) :=
  ⟨[("unit", .custom .unit), ("", .array (.object ⟨[("", .number)]⟩))]⟩

/-- The offending item lies in an array without a name. -/
theorem validate_rootKey_matrix :
    let document : Value := .object [("", .array [.object [("", .bool true)]]),
      ("unit", .string "m")]
    Schema.matrix.UniqueNames ∧ Schema.matrix.NamesObjects ∧
      (∀ resolver ∈ Schema.matrix.resolvers, resolver.IgnoresPath) ∧
      (validate Schema.matrix ⟨true, none⟩ document).run 0 =
        (.error (.rejected (.wrongKind "[0]." "number" (.bool true))), 1) ∧
      (validate Schema.matrix ⟨true, some "body"⟩ document).run 0 =
        (.error (.rejected (.wrongKind "body.[0]." "number" (.bool true))), 1) := by
  intro document
  have unique : Schema.matrix.UniqueNames := by decide
  have named : Schema.matrix.NamesObjects := by
    intro field listed nested
    simp only [Schema.matrix, List.mem_cons, Prod.mk.injEq, List.not_mem_nil, or_false] at listed
    rcases listed with ⟨named, -⟩ | ⟨-, rfl⟩
    · simp at named
    · simp [Field.array, Field.required]
  have ignores : ∀ resolver ∈ Schema.matrix.resolvers, resolver.IgnoresPath := by
    intro resolver listed
    cases List.mem_singleton.mp listed
    exact fun _ _ _ => rfl
  have bare : (validate Schema.matrix ⟨true, none⟩ document).run 0 =
      (.error (.rejected (.wrongKind "[0]." "number" (.bool true))), 1) := rfl
  obtain ⟨inside, -⟩ :=
    validate_rootKey ⟨Schema.matrix, unique⟩ named ignores "body" (by decide) true document 0
  have keyed := inside (.inr ⟨_, rfl⟩)
  rw [bare] at keyed
  exact ⟨unique, named, ignores, bare, keyed⟩

end DocShape
