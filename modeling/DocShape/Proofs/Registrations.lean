import DocShape.Proofs.ResolverNames

/-! Loaders by what was registered with them, one after another. A loading depends on what was
registered last under the names that the definition gives, and further names cannot spoil it. -/

set_option autoImplicit false

namespace DocShape

open Json (Value)

variable {ρ : Type}

namespace Loader

def ofRegistrations (registrations : List (String × ρ)) : Loader ρ :=
  registrations.foldl (fun loader one => loader.register one.1 one.2) empty

theorem get?_ofRegistrations (name : String) (registrations : List (String × ρ)) :
    Entries.get? name (ofRegistrations registrations).resolvers =
      Entries.last? name registrations := by
  suffices each : ∀ loader : Loader ρ,
      (registrations.foldl (fun loader one => loader.register one.1 one.2) loader).resolvers =
        registrations.foldl (fun held one => Entries.insert one.1 one.2 held) loader.resolvers by
    rw [ofRegistrations, each, ← Entries.get?_ofPairs]
    rfl
  induction registrations with
  | nil => exact fun _ => rfl
  | cons one registrations ih => exact fun loader => ih (loader.register one.1 one.2)

end Loader

/-- A loading depends on what was registered last under each name that the definition gives.
Registering names that were not registered changes neither a schema that loads nor any fault
but that a resolver is not known, and this fault is found at its place until the resolver is
registered. Faults stay in the same way where names are registered anew. -/
theorem load_registrations (registrations : List (String × ρ)) (definition : Value) :
    (∀ others : List (String × ρ),
      (∀ name ∈ definition.resolverNames,
        Entries.last? name others = Entries.last? name registrations) →
      (Loader.ofRegistrations others).load definition =
        (Loader.ofRegistrations registrations).load definition) ∧
    (∀ (further : List (String × ρ)) (schema : Schema ρ),
      (∀ name ∈ Entries.names further, name ∉ Entries.names registrations) →
      (Loader.ofRegistrations registrations).load definition = .ok schema →
      (Loader.ofRegistrations (registrations ++ further)).load definition = .ok schema) ∧
    (∀ (further : List (String × ρ)) (error : Error),
      (∀ path name, error ≠ .malformed path (.unknownResolver name)) →
      (Loader.ofRegistrations registrations).load definition = .error error →
      (Loader.ofRegistrations (registrations ++ further)).load definition = .error error) ∧
    (∀ (further : List (String × ρ)) (path name : String),
      (Loader.ofRegistrations registrations).load definition =
        .error (.malformed path (.unknownResolver name)) →
      (name ∉ Entries.names further →
        (Loader.ofRegistrations (registrations ++ further)).load definition =
          .error (.malformed path (.unknownResolver name))) ∧
      (name ∈ Entries.names further → ∀ place,
        (Loader.ofRegistrations (registrations ++ further)).load definition ≠
          .error (.malformed place (.unknownResolver name)))) := by
  have found (further : List (String × ρ)) (name : String) :
      Entries.get? name (Loader.ofRegistrations (registrations ++ further)).resolvers =
        (Entries.last? name further).or (Entries.last? name registrations) := by
    rw [Loader.get?_ofRegistrations, Entries.last?_append]
  have grows (further : List (String × ρ)) (name : String)
      (known : Entries.get? name (Loader.ofRegistrations registrations).resolvers ≠ none) :
      Entries.get? name (Loader.ofRegistrations (registrations ++ further)).resolvers ≠ none := by
    rw [Loader.get?_ofRegistrations] at known
    rw [found]
    simp [known]
  refine ⟨?determined, ?loaded, ?refused, ?unknown⟩
  case determined =>
    intro others same
    apply Loader.load_congr
    intro name given
    rw [Loader.get?_ofRegistrations, Loader.get?_ofRegistrations, same name given]
  case loaded =>
    intro further schema fresh loaded
    refine Loader.load_of_keeps ?_ loaded
    intro name _ resolver registered
    rw [Loader.get?_ofRegistrations] at registered
    have absent : name ∉ Entries.names further := by
      intro listed
      rw [Entries.last?_eq_none_iff.mpr (fresh name listed)] at registered
      cases registered
    rw [found, Entries.last?_eq_none_iff.mpr absent, registered]
    rfl
  case refused =>
    intro further error other failed
    rcases Loader.error_of_load_of_knows (grows further) failed with same | ⟨path, name, unknown, -⟩
    · exact same
    · exact absurd unknown (other path name)
  case unknown =>
    intro further path name failed
    have missing := Loader.missing_of_load failed
    rw [Loader.get?_ofRegistrations] at missing
    constructor
    · intro absent
      rcases Loader.error_of_load_of_knows (grows further) failed with same | ⟨_, _, same, known⟩
      · exact same
      · cases same
        rw [found, Entries.last?_eq_none_iff.mpr absent, missing] at known
        exact absurd rfl known
    · intro registered place failedAgain
      have missingAgain := Loader.missing_of_load failedAgain
      rw [found, missing, Option.or_none, Entries.last?_eq_none_iff] at missingAgain
      exact missingAgain registered

def customEntry (name : String) : Value :=
  .object [("type", .string "custom"), ("resolver", .string name)]

private theorem loadField_customEntry (loader : Loader ρ) (path name : String) :
    loader.loadField path (customEntry name) =
      match Entries.get? name loader.resolvers with
      | none => .error (.malformed path (.unknownResolver name))
      | some resolver => .ok (.custom resolver) := by
  have read : Entry.read path (customEntry name) = .ok ⟨"custom", none, none, none, some name⟩ :=
    rfl
  rw [Loader.loadField_eq, read]
  simp only [Loader.loadItem, Loader.findResolver, bind, Except.bind]
  cases Entries.get? name loader.resolvers <;> rfl

def visitMarks (mark : Value) : Value :=
  .object [("type", .string "object"), ("fields", .object [("mark", mark)])]

def visitDefinition (mark : Value) : Value :=
  .object [("fields", .object [("visitor", customEntry "badge"),
    ("marks", .object [("type", .string "array"), ("element", visitMarks mark)])])]

private theorem load_visitDefinition (loader : Loader ρ) (mark : Value) :
    loader.load (visitDefinition mark) = (do
      let visitor ← loader.loadField "visitor" (customEntry "badge")
      let mark ← loader.loadField "marks[].mark" mark
      return ⟨[("visitor", visitor), ("marks", .array (.object ⟨[("mark", mark)]⟩))]⟩) := by
  have readElement : Entry.read "marks[]" (visitMarks mark) =
      .ok ⟨"object", none, some [("mark", mark)], none, none⟩ := rfl
  have element : loader.loadElement "marks[]" (visitMarks mark) = (do
      let mark ← loader.loadField "marks[].mark" mark
      return .object ⟨[("mark", mark)]⟩) := by
    rw [Loader.loadElement_eq, readElement]
    have place : KeyPath.join "marks[]" "mark" = "marks[].mark" := rfl
    simp only [bind, Except.bind]
    rw [if_neg (by simp), if_neg (by simp), Loader.loadItem_object loader "marks[]" rfl]
    simp only [List.isEmpty_cons, Bool.false_eq_true, ↓reduceIte, Loader.loadFields, place]
    cases loader.loadField "marks[].mark" mark <;> rfl
  have readMarks : Entry.read "marks" (.object [("type", .string "array"),
      ("element", visitMarks mark)]) =
    .ok ⟨"array", none, none, some (visitMarks mark), none⟩ := rfl
  have marks : loader.loadField "marks" (.object [("type", .string "array"),
      ("element", visitMarks mark)]) = (do
      let mark ← loader.loadField "marks[].mark" mark
      return .array (.object ⟨[("mark", mark)]⟩)) := by
    have place : KeyPath.anyItem "marks" = "marks[]" := rfl
    rw [Loader.loadField_eq, readMarks]
    simp only [bind, Except.bind, ↓reduceIte, place, element]
    cases loader.loadField "marks[].mark" mark <;> rfl
  have defined : Loader.definedFields? (visitDefinition mark) =
      some [("visitor", customEntry "badge"),
        ("marks", .object [("type", .string "array"), ("element", visitMarks mark)])] := rfl
  have placeVisitor : KeyPath.join "" "visitor" = "visitor" := rfl
  have placeMarks : KeyPath.join "" "marks" = "marks" := rfl
  simp only [Loader.load, defined, Loader.loadFields, placeVisitor, placeMarks, marks]
  cases loader.loadField "visitor" (customEntry "badge") with
  | error => rfl
  | ok => cases loader.loadField "marks[].mark" mark <;> rfl

private theorem resolverNames_visitDefinition :
    (visitDefinition (customEntry "stamp")).resolverNames = ["badge", "stamp"] := by
  have mark : entriesFrom "marks[].mark" false (customEntry "stamp") =
      [⟨"marks[].mark", false, customEntry "stamp"⟩] := entriesFrom_leaf rfl rfl
  have visitor : entriesFrom "visitor" false (customEntry "badge") =
      [⟨"visitor", false, customEntry "badge"⟩] := entriesFrom_leaf rfl rfl
  have defined : Loader.definedFields? (visitDefinition (customEntry "stamp")) =
      some [("visitor", customEntry "badge"), ("marks", .object [("type", .string "array"),
        ("element", visitMarks (customEntry "stamp"))])] := rfl
  have placeMark : KeyPath.join "marks[]" "mark" = "marks[].mark" := rfl
  have placeMarks : KeyPath.anyItem "marks" = "marks[]" := rfl
  have element : entriesFrom "marks[]" true (visitMarks (customEntry "stamp")) =
      [⟨"marks[]", true, visitMarks (customEntry "stamp")⟩,
        ⟨"marks[].mark", false, customEntry "stamp"⟩] := by
    rw [entriesFrom_fields rfl]
    simp only [entriesIn, placeMark, mark, List.append_nil]
  have marks : entriesFrom "marks" false (.object [("type", .string "array"),
      ("element", visitMarks (customEntry "stamp"))]) =
      ⟨"marks", false, _⟩ :: entriesFrom "marks[]" true (visitMarks (customEntry "stamp")) :=
    entriesFrom_element rfl rfl
  have placeVisitor : KeyPath.join "" "visitor" = "visitor" := rfl
  have placeField : KeyPath.join "" "marks" = "marks" := rfl
  simp only [Value.resolverNames, Value.entries, defined, entriesIn, placeVisitor, placeField,
    visitor, marks, element]
  rfl

/-- The badge was registered twice. Without the stamp the marks cannot be loaded, whatever is
done about the badge. -/
theorem load_registrations_visit :
    let known := [("badge", "plain"), ("stamp", "round"), ("badge", "photo")]
    let others := [("stamp", "round"), ("spare", "blank"), ("badge", "photo")]
    let stamped := visitDefinition (customEntry "stamp")
    let mistyped := visitDefinition (.object [("type", .string "stamp")])
    let schema : Schema String :=
      ⟨[("visitor", .custom "photo"), ("marks", .array (.object ⟨[("mark", .custom "round")]⟩))]⟩
    let unknown := Error.malformed "marks[].mark" (.unknownResolver "stamp")
    let wrong := Error.malformed "marks[].mark" (.unknownType "stamp")
    (∀ name ∈ stamped.resolverNames, Entries.last? name others = Entries.last? name known) ∧
      (Loader.ofRegistrations known).load stamped = .ok schema ∧
      (Loader.ofRegistrations others).load stamped = .ok schema ∧
      (Loader.ofRegistrations (known ++ [("spare", "blank")])).load stamped = .ok schema ∧
      (Loader.ofRegistrations (known ++ [("stamp", "square")])).load mistyped = .error wrong ∧
      (Loader.ofRegistrations ([("badge", "plain")] ++ [("badge", "photo")])).load stamped =
        .error unknown ∧
      (Loader.ofRegistrations ([("badge", "plain")] ++ [("stamp", "round")])).load stamped ≠
        .error unknown := by
  intro known others stamped mistyped schema unknown wrong
  have same : ∀ name ∈ stamped.resolverNames,
      Entries.last? name others = Entries.last? name known := by
    rw [resolverNames_visitDefinition]
    simp [Entries.last?, Entries.get?, known, others]
  have loads (registrations : List (String × String)) (mark : Value) :
      (Loader.ofRegistrations registrations).load (visitDefinition mark) = _ :=
    load_visitDefinition _ mark
  have loaded : (Loader.ofRegistrations known).load stamped = .ok schema := by
    simp only [stamped, loads, loadField_customEntry, Loader.get?_ofRegistrations]
    rfl
  have mistaken : (Loader.ofRegistrations known).load mistyped = .error wrong := by
    have read : Entry.read "marks[].mark" (.object [("type", .string "stamp")]) =
        .ok ⟨"stamp", none, none, none, none⟩ := rfl
    simp only [mistyped, loads, loadField_customEntry, Loader.get?_ofRegistrations]
    rw [Loader.loadField_eq, read]
    simp only [Loader.loadItem, bind, Except.bind]
    rfl
  have failed : (Loader.ofRegistrations [("badge", "plain")]).load stamped = .error unknown := by
    simp only [stamped, loads, loadField_customEntry, Loader.get?_ofRegistrations]
    rfl
  obtain ⟨determined, extended, -, -⟩ := load_registrations known stamped
  obtain ⟨-, -, refused, -⟩ := load_registrations known mistyped
  obtain ⟨-, -, -, unknownIn⟩ := load_registrations [("badge", "plain")] stamped
  refine ⟨same, loaded, (determined others same).trans loaded, ?spare, ?stays, ?badge, ?stamp⟩
  case spare =>
    refine extended [("spare", "blank")] schema ?_ loaded
    simp [known]
  case stays =>
    exact refused [("stamp", "square")] wrong (by simp [wrong]) mistaken
  case badge =>
    exact (unknownIn [("badge", "photo")] _ _ failed).1 (by simp)
  case stamp =>
    exact (unknownIn [("stamp", "round")] _ _ failed).2 (by simp) _

end DocShape
