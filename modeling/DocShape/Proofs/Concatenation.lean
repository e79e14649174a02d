import DocShape.Proofs.Validation

/-! Schemas declared one behind the other. The fields of the first are checked before
those of the second, which then see what the first check has stored: a lenient
validation against both is one against the first and another one of what it hands
back. -/

set_option autoImplicit false

namespace DocShape

open Json (Value)

variable {σ ρ : Type}

/-! ## Declaring the fields of another schema -/

/-- Declares the fields of a second schema, one after another, behind those of the first. -/
def Schema.followedBy (first second : Schema ρ) : Schema ρ :=
  ⟨second.fields.foldl (fun fields pair => Entries.insert pair.1 pair.2 fields) first.fields⟩

/-- No name is declared by both at the outermost level. -/
def Schema.Disjoint (first second : Schema ρ) : Prop :=
  (Entries.names first.fields).Disjoint (Entries.names second.fields)

theorem Schema.followedBy_eq {first second : Schema ρ} (unique : second.UniqueNames)
    (disjoint : first.Disjoint second) :
    first.followedBy second = ⟨first.fields ++ second.fields⟩ := by
  obtain ⟨fields⟩ := second
  rw [Schema.followedBy, Entries.foldl_insert_of_disjoint unique.1 disjoint]

private theorem emptyObjectIn?_fields_append (path : String)
    (first second : List (String × Field ρ)) :
    emptyObjectIn? path (first ++ second) =
      (emptyObjectIn? path first).or (emptyObjectIn? path second) := by
  induction first with
  | nil => rfl
  | cons head rest ih =>
      obtain ⟨name, ⟨kind, optional⟩⟩ := head
      rw [List.cons_append, emptyObjectIn?, emptyObjectIn?, ih]
      cases kind.emptyObject? (KeyPath.join path name) <;> rfl

/-! ## Checking one after the other -/

/-- The later fields are checked on the members that the earlier ones hand back. -/
theorem Walk.fields_append (strict : Bool) (first second : List (String × Field (Resolver σ)))
    (members : List (String × Value)) (path : String) :
    Walk.fields strict (first ++ second) members path =
      Walk.fields strict first members path >>= fun kept =>
        Walk.fields strict second kept path := by
  induction first generalizing members with
  | nil => rw [List.nil_append, Walk.fields, pure_bind]
  | cons head rest ih =>
      obtain ⟨name, ⟨kind, optional⟩⟩ := head
      rw [List.cons_append]
      rcases absent_or_present (Entries.get? name members) with absent | ⟨value, found, held⟩
      · rw [Walk.fields_cons_absent absent, Walk.fields_cons_absent absent]
        cases optional with
        | true => exact ih members
        | false => rfl
      · rw [Walk.fields_cons_present found held, Walk.fields_cons_present found held, bind_assoc]
        simp only [ih]

private theorem walkDocument_append (first second : List (String × Field (Resolver σ)))
    (rootKey : Option String) (document : Value) :
    walkDocument ⟨first ++ second⟩ ⟨false, rootKey⟩ document =
      walkDocument ⟨first⟩ ⟨false, rootKey⟩ document >>= fun kept =>
        walkDocument ⟨second⟩ ⟨false, rootKey⟩ kept := by
  cases document with
  | object members => simp [walkDocument, Walk.object, Walk.fields_append]
  | null | bool | number | string | array => rfl

/-- Validates a document, and then what the first validation hands back. -/
def validateInTurn (first second : Schema (Resolver σ)) (options : Options) (document : Value) :
    StateM σ (Except Error Value) := do
  match ← validate first options document with
  | .error error => return .error error
  | .ok kept => validate second options kept

theorem validate_append (first second : List (String × Field (Resolver σ)))
    (wellFormed : ¬ (Schema.mk second).Malformed) (rootKey : Option String) (document : Value) :
    validate ⟨first ++ second⟩ ⟨false, rootKey⟩ document =
      validateInTurn ⟨first⟩ ⟨second⟩ ⟨false, rootKey⟩ document := by
  let options : Options := ⟨false, rootKey⟩
  have nothing : (Schema.mk second).emptyObject? options.path = none :=
    Schema.emptyObject?_eq_none_iff.mpr wellFormed
  have search : (Schema.mk (first ++ second)).emptyObject? options.path =
      (Schema.mk first).emptyObject? options.path := by
    rw [Schema.emptyObject?, emptyObjectIn?_fields_append]
    exact (congrArg (Option.or _) nothing).trans Option.or_none
  rw [validateInTurn]
  cases empty : (Schema.mk first).emptyObject? options.path with
  | some path => rw [validate_malformed (search.trans empty), validate_malformed empty, pure_bind]
  | none =>
      rw [validate_wellFormed (search.trans empty), validate_wellFormed empty,
        walkDocument_append, ExceptT.run_bind]
      congr 1
      funext result
      cases result with
      | error error => rfl
      | ok kept => exact (validate_wellFormed nothing kept).symm

theorem mapFields_append {τ : Type} (change : ρ → τ) (first second : List (String × Field ρ)) :
    mapFields change (first ++ second) = mapFields change first ++ mapFields change second := by
  induction first with
  | nil => rfl
  | cons head rest ih =>
      obtain ⟨name, ⟨kind, optional⟩⟩ := head
      simp only [List.cons_append, mapFields, ih]

/-- Without strictness, one schema that declares the fields of two does what they do one
after the other: the same document comes of it, or the same error, by the same calls and
in the same state. The logged resolvers write each call down. -/
theorem validate_followedBy (first : Schema (Resolver σ)) (second : Schema.Distinct (Resolver σ))
    (disjoint : first.Disjoint second) (wellFormed : ¬ second.Malformed)
    (rootKey : Option String) (document : Value) :
    validate (first.followedBy second) ⟨false, rootKey⟩ document =
        validateInTurn first second ⟨false, rootKey⟩ document ∧
      validate ((first.followedBy second).map Resolver.logged) ⟨false, rootKey⟩ document =
        validateInTurn (first.map Resolver.logged) (second.map Resolver.logged)
          ⟨false, rootKey⟩ document := by
  rw [Schema.followedBy_eq second.unique disjoint]
  obtain ⟨declared⟩ := first
  obtain ⟨⟨others⟩, unique⟩ := second
  constructor
  · exact validate_append declared others wellFormed rootKey document
  · have mapped : ¬ ((Schema.mk others).map Resolver.logged).Malformed :=
      mt (Schema.malformed_map Resolver.logged).mp wellFormed
    simp only [Schema.map, mapFields_append]
    exact validate_append _ _ mapped rootKey document

/-- Takes the first calls and fails the later ones. -/
def Resolver.turnstile (limit : Nat) : Resolver Nat := fun value path passed =>
  if passed < limit then (.ok value, passed + 1) else (.error ("closed at " ++ path), passed)

def Schema.visitor : Schema (Resolver Nat) :=
  ⟨[("ticket", .custom (.turnstile 2)), ("name", .withOptional true .string)]⟩

def Schema.party : Schema (Resolver Nat) :=
  ⟨[("guests", .array (.custom (.turnstile 2))), ("size", .number)]⟩

/-- The second guest is one too many, since the ticket has been asked about before. -/
theorem validate_followedBy_guests :
    let document : Value := .object [("guests", .array [.string "a", .string "b"]),
      ("ticket", .string "t")]
    Schema.party.UniqueNames ∧ Schema.visitor.Disjoint Schema.party ∧
      ¬ Schema.party.Malformed ∧
      (validate (Schema.visitor.followedBy .party) ⟨false, some "gate"⟩ document).run 0 =
        (.error (.resolverFailed "gate.guests[1]" "closed at gate.guests[1]"), 2) ∧
      (validateInTurn Schema.visitor .party ⟨false, some "gate"⟩ document).run 0 =
        (.error (.resolverFailed "gate.guests[1]" "closed at gate.guests[1]"), 2) := by
  intro document
  have unique : Schema.party.UniqueNames := by decide
  have disjoint : Schema.visitor.Disjoint Schema.party := by
    simp [Schema.Disjoint, Schema.visitor, Schema.party, Entries.names]
  have wellFormed : ¬ Schema.party.Malformed := (Schema.emptyObjects_eq_nil_iff _ "").mp rfl
  have inTurn : (validateInTurn Schema.visitor .party ⟨false, some "gate"⟩ document).run 0 =
      (.error (.resolverFailed "gate.guests[1]" "closed at gate.guests[1]"), 2) := rfl
  obtain ⟨same, -⟩ :=
    validate_followedBy Schema.visitor ⟨.party, unique⟩ disjoint wellFormed (some "gate") document
  exact ⟨unique, disjoint, wellFormed, same ▸ inTurn, inTurn⟩

end DocShape
