import DocShape.Proofs.Loading
import DocShape.Proofs.PlacedEntries

/-! Where a loading ends among the entries of its definition. It reads on as long
as the loader accepts them, and the first that it does not accept is the one it
blames. -/

set_option autoImplicit false

namespace DocShape

open Json (Value)

variable {ρ : Type}

namespace Loader

variable {loader : Loader ρ} {α β : Type}

/-- How a loading of entries ends: well where all of them are accepted, otherwise
by a fault at the first that is not. -/
inductive Settles (loader : Loader ρ) : List PlacedEntry → Except Error α → Prop where
  | loaded {value : α} : Settles loader [] (.ok value)
  | refused {one : PlacedEntry} {rest : List PlacedEntry} {fault : SchemaFault}
      (faulty : ¬ one.Accepted loader) :
      Settles loader (one :: rest) (malformed one.path fault)
  | accepted {one : PlacedEntry} {rest : List PlacedEntry} {result : Except Error α}
      (sound : one.Accepted loader) (later : Settles loader rest result) :
      Settles loader (one :: rest) result

theorem Settles.bind {first second : List PlacedEntry} {result : Except Error α}
    {next : α → Except Error β} (here : loader.Settles first result)
    (later : ∀ value, loader.Settles second (next value)) :
    loader.Settles (first ++ second) (result >>= next) := by
  induction here with
  | loaded => exact later _
  | refused faulty => exact .refused faulty
  | accepted sound _ ih => exact .accepted sound ih

theorem Settles.map {entries : List PlacedEntry} {result : Except Error α}
    (settles : loader.Settles entries result) (change : α → β) :
    loader.Settles entries (result >>= fun value => return change value) := by
  have none : ∀ value, loader.Settles [] (return change value) := fun _ => .loaded
  have whole := settles.bind none
  rwa [List.append_nil] at whole

private theorem Settles.exists_ok {entries : List PlacedEntry} {result : Except Error α}
    (settles : loader.Settles entries result)
    (sound : ∀ one ∈ entries, one.Accepted loader) : ∃ value, result = .ok value := by
  induction settles with
  | loaded => exact ⟨_, rfl⟩
  | refused faulty => exact absurd (sound _ List.mem_cons_self) faulty
  | accepted _ _ ih => exact ih fun one listed => sound one (List.mem_cons_of_mem _ listed)

theorem Settles.accepts {entries : List PlacedEntry} {value : α}
    (settles : loader.Settles entries (.ok value)) :
    ∀ one ∈ entries, one.Accepted loader := by
  generalize ended : (Except.ok value : Except Error α) = result at settles
  induction settles with
  | loaded => simp
  | refused => cases ended
  | accepted sound _ ih => exact List.forall_mem_cons.mpr ⟨sound, ih ended⟩

theorem Settles.first_refused {before after : List PlacedEntry} {one : PlacedEntry}
    {result : Except Error α} (settles : loader.Settles (before ++ one :: after) result)
    (sound : ∀ earlier ∈ before, earlier.Accepted loader) (faulty : ¬ one.Accepted loader) :
    ∃ fault, result = .error (.malformed one.path fault) := by
  induction before with
  | nil =>
      cases settles with
      | refused => exact ⟨_, rfl⟩
      | accepted accepted _ => exact absurd accepted faulty
  | cons earlier before ih =>
      obtain ⟨here, others⟩ := List.forall_mem_cons.mp sound
      cases settles with
      | refused refused => exact absurd here refused
      | accepted _ later => exact ih later others

/-! ## The functions of the loader -/

theorem Settles.blamed {path : String} {inArray : Bool} {value : Value} (fault : SchemaFault)
    (faulty : ¬ (⟨path, inArray, value⟩ : PlacedEntry).Accepted loader) :
    loader.Settles (entriesFrom path inArray value) (malformed path fault : Except Error α) := by
  obtain ⟨below, same⟩ := entriesFrom_eq_cons path inArray value
  rw [same]
  exact .refused faulty

/-- A value is read as what it decodes to unless a member is misplaced. -/
theorem read_cases (loader : Loader ρ) (path : String) (value : Value) :
    (∃ fault, Entry.read path value = malformed path fault ∧
      ∀ inArray, ¬ (⟨path, inArray, value⟩ : PlacedEntry).Accepted loader) ∨
    ∃ entry, Entry.read path value = .ok entry ∧ Entry.ofValue value = .ok entry ∧
      entry.misplaced? = none := by
  unfold Entry.read
  cases decoded : Entry.ofValue value with
  | error mismatch =>
      refine .inl ⟨.entry mismatch, rfl, ?_⟩
      rintro inArray ⟨entry, decodedEntry, -⟩
      rw [decoded] at decodedEntry
      cases decodedEntry
  | ok entry =>
      cases placed : entry.misplaced? with
      | none => exact .inr ⟨entry, by simp only [placed], rfl, placed⟩
      | some fault =>
          refine .inl ⟨fault, by simp only [placed]; rfl, ?_⟩
          intro inArray accepted
          have sound := (PlacedEntry.accepted_iff_sound decoded).mp accepted
          rw [sound.placed] at placed
          cases placed

private theorem scalarOf?_eq_none_iff {type : String} (noObject : type ≠ "object")
    (noArray : type ≠ "array") (noCustom : type ≠ "custom") :
    scalarOf? type = none ↔ type ∉ Entry.typeNames := by
  unfold scalarOf?
  split <;> simp_all [Entry.typeNames]

section Decoded

variable {path : String} {inArray : Bool} {value : Value} {entry : Entry}
  {result : Except Error α} (decoded : Entry.ofValue value = .ok entry)

include decoded

private theorem settles_unsound (fault : SchemaFault) (unsound : ¬ entry.Sound loader inArray) :
    loader.Settles (entriesFrom path inArray value) (malformed path fault : Except Error α) :=
  .blamed fault (mt (PlacedEntry.accepted_iff_sound decoded).mp unsound)

variable (sound : entry.Sound loader inArray)

include sound

private theorem settles_leaf (noObject : entry.type ≠ "object") (noArray : entry.type ≠ "array")
    (loaded : α) : loader.Settles (entriesFrom path inArray value) (.ok loaded) := by
  rw [entriesFrom_of_scalar decoded noObject noArray]
  exact .accepted ((PlacedEntry.accepted_iff_sound decoded).mpr sound) .loaded

private theorem settles_object {fields : List (String × Value)} (isObject : entry.type = "object")
    (held : entry.fields = some fields) (later : loader.Settles (entriesIn path fields) result) :
    loader.Settles (entriesFrom path inArray value) result := by
  rw [entriesFrom_of_object decoded isObject held]
  exact .accepted ((PlacedEntry.accepted_iff_sound decoded).mpr sound) later

private theorem settles_array {element : Value} (isArray : entry.type = "array")
    (held : entry.element = some element)
    (later : loader.Settles (entriesFrom (KeyPath.anyItem path) true element) result) :
    loader.Settles (entriesFrom path inArray value) result := by
  rw [entriesFrom_of_array decoded isArray held]
  exact .accepted ((PlacedEntry.accepted_iff_sound decoded).mpr sound) later

end Decoded

section Leaves

variable {path : String} {inArray : Bool} {value : Value} {entry : Entry}
  (decoded : Entry.ofValue value = .ok entry) (placed : entry.misplaced? = none)
  (asElement : inArray = true → entry.optional = none)

include decoded placed asElement

private theorem settles_findResolver (isCustom : entry.type = "custom") :
    loader.Settles (entriesFrom path inArray value) (loader.findResolver path entry) := by
  unfold findResolver
  cases held : entry.resolver with
  | none =>
      refine settles_unsound decoded _ fun sound => ?_
      obtain ⟨name, resolver, told, -⟩ := sound.resolver isCustom
      rw [held] at told
      cases told
  | some name =>
      cases registered : Entries.get? name loader.resolvers with
      | none =>
          simp only [registered]
          refine settles_unsound decoded _ fun sound => ?_
          obtain ⟨other, resolver, told, known⟩ := sound.resolver isCustom
          rw [held] at told
          cases told
          rw [registered] at known
          cases known
      | some resolver =>
          have sound : entry.Sound loader inArray :=
            { placed
              known := by simp [isCustom, Entry.typeNames]
              element := by simp [isCustom]
              fields := by simp [isCustom]
              resolver := fun _ => ⟨name, resolver, held, registered⟩
              asElement := fun inside => ⟨asElement inside, by simp [isCustom]⟩ }
          simp only [registered]
          exact settles_leaf decoded sound (by simp [isCustom]) (by simp [isCustom]) resolver

private theorem settles_scalar (noObject : entry.type ≠ "object") (noArray : entry.type ≠ "array")
    (noCustom : entry.type ≠ "custom") :
    loader.Settles (entriesFrom path inArray value) (loader.loadItem path entry) := by
  have unknown_iff := scalarOf?_eq_none_iff noObject noArray noCustom
  rw [loadItem_other loader path noObject noCustom]
  cases scalar : scalarOf? entry.type with
  | none => exact settles_unsound decoded _ fun sound => unknown_iff.mp scalar sound.known
  | some kind =>
      have known : entry.type ∈ Entry.typeNames := by
        rw [scalar] at unknown_iff
        simpa using unknown_iff
      have sound : entry.Sound loader inArray :=
        { placed
          known
          element := by simp [noArray]
          fields := by simp [noObject]
          resolver := by simp [noCustom]
          asElement := fun inside => ⟨asElement inside, noArray⟩ }
      exact settles_leaf decoded sound noObject noArray _

end Leaves

-- These follow the recursion of the loader and end by the same measures.
mutual

private theorem settles_loadField (loader : Loader ρ) (path : String) (value : Value) :
    loader.Settles (entriesFrom path false value) (loader.loadField path value) := by
  rw [loadField_eq]
  rcases read_cases loader path value with ⟨fault, failed, refused⟩ | ⟨entry, read, decoded, placed⟩
  · rw [failed]
    exact .blamed fault (refused false)
  rw [read]
  simp only [bind, Except.bind]
  split
  · rename_i isArray
    cases held : entry.element with
    | none => exact settles_unsound decoded _ fun sound => sound.element isArray held
    | some element =>
        have smaller := Entry.sizeOf_element_lt decoded held
        have sound : entry.Sound loader false :=
          { placed
            known := by simp [isArray, Entry.typeNames]
            element := by simp [held]
            fields := by simp [isArray]
            resolver := by simp [isArray]
            asElement := by simp }
        have inside := settles_loadElement loader (KeyPath.anyItem path) element
        exact settles_array decoded sound isArray held (inside.map _)
  · rename_i noArray
    have smaller := Entry.fieldsSize_lt decoded
    exact (settles_loadItem loader path value entry false decoded placed (by simp) noArray).map _
termination_by 2 * sizeOf value

private theorem settles_loadElement (loader : Loader ρ) (path : String) (value : Value) :
    loader.Settles (entriesFrom path true value) (loader.loadElement path value) := by
  rw [loadElement_eq]
  rcases read_cases loader path value with ⟨fault, failed, refused⟩ | ⟨entry, read, decoded, placed⟩
  · rw [failed]
    exact .blamed fault (refused true)
  rw [read]
  simp only [bind, Except.bind]
  split
  · rename_i present
    refine settles_unsound decoded _ fun sound => ?_
    simp [(sound.asElement rfl).1] at present
  · split
    · rename_i isArray
      exact settles_unsound decoded _ fun sound => (sound.asElement rfl).2 isArray
    · rename_i absent noArray
      have smaller := Entry.fieldsSize_lt decoded
      exact settles_loadItem loader path value entry true decoded placed
        (fun _ => by simpa using absent) noArray
termination_by 2 * sizeOf value

private theorem settles_loadItem (loader : Loader ρ) (path : String) (value : Value) (entry : Entry)
    (inArray : Bool) (decoded : Entry.ofValue value = .ok entry)
    (placed : entry.misplaced? = none) (asElement : inArray = true → entry.optional = none)
    (noArray : entry.type ≠ "array") :
    loader.Settles (entriesFrom path inArray value) (loader.loadItem path entry) := by
  by_cases isObject : entry.type = "object"
  · rw [loadItem_object loader path isObject]
    cases held : entry.fields with
    | none =>
        refine settles_unsound decoded _ fun sound => ?_
        obtain ⟨fields, some, -⟩ := sound.fields isObject
        rw [held] at some
        cases some
    | some fields =>
        cases fields with
        | nil =>
            refine settles_unsound decoded _ fun sound => ?_
            obtain ⟨fields, some, inhabited⟩ := sound.fields isObject
            rw [held] at some
            cases some
            exact inhabited rfl
        | cons first others =>
            have size : entry.fieldsSize = 1 + sizeOf first + sizeOf others := by
              simp [Entry.fieldsSize, held]
            have sound : entry.Sound loader inArray :=
              { placed
                known := by simp [isObject, Entry.typeNames]
                element := by simp [isObject]
                fields := fun _ => ⟨first :: others, held, by simp⟩
                resolver := by simp [isObject]
                asElement := fun inside => ⟨asElement inside, noArray⟩ }
            have inside := settles_loadFields loader path (first :: others)
            exact settles_object decoded sound isObject held (inside.map _)
  by_cases isCustom : entry.type = "custom"
  · rw [loadItem_custom loader path isCustom]
    exact (settles_findResolver decoded placed asElement isCustom).map _
  · exact settles_scalar decoded placed asElement isObject noArray isCustom
termination_by 2 * entry.fieldsSize + 1

private theorem settles_loadFields (loader : Loader ρ) (path : String) :
    (entries : List (String × Value)) →
    loader.Settles (entriesIn path entries) (loader.loadFields path entries)
  | [] => by
      rw [loadFields, entriesIn]
      exact .loaded
  | (name, value) :: rest => by
      rw [loadFields, entriesIn]
      refine (settles_loadField loader (KeyPath.join path name) value).bind ?_
      intro field
      exact (settles_loadFields loader path rest).map _
termination_by entries => 2 * sizeOf entries

end

theorem load_of_definedFields_eq_none {definition : Value}
    (noFields : definedFields? definition = none) :
    loader.load definition = malformed KeyPath.definition .noDefinition := by
  simp only [load, noFields]

theorem settles_load (loader : Loader ρ) {definition : Value} {fields : List (String × Value)}
    (defined : definedFields? definition = some fields) :
    loader.Settles definition.entries (loader.load definition) := by
  simp only [load, Value.entries, defined]
  exact (settles_loadFields loader "" fields).map _

theorem definedFields?_eq_some_iff {definition : Value} {fields : List (String × Value)} :
    definedFields? definition = some fields ↔ ∃ members, definition = .object members ∧
      Entries.get? "fields" members = some (.object fields) := by
  cases definition with
  | object members =>
      have same : ∀ value, Entry.members? value = some fields ↔ value = .object fields := by
        intro value
        cases value <;> simp [Entry.members?]
      simp [definedFields?, Option.bind_eq_some_iff, same]
  | null | bool | number | string | array => simp [definedFields?]

theorem exists_ok_iff (loader : Loader ρ) (definition : Value) :
    (∃ schema, loader.load definition = .ok schema) ↔
      (∃ members fields, definition = .object members ∧
        Entries.get? "fields" members = some (.object fields)) ∧
      ∀ one ∈ definition.entries, one.Accepted loader := by
  cases defined : definedFields? definition with
  | none =>
      have noFields : ¬ ∃ members fields, definition = .object members ∧
          Entries.get? "fields" members = some (.object fields) := by
        rintro ⟨members, fields, held⟩
        rw [definedFields?_eq_some_iff.mpr ⟨members, held⟩] at defined
        cases defined
      constructor
      · rintro ⟨schema, loaded⟩
        rw [load_of_definedFields_eq_none defined] at loaded
        cases loaded
      · rintro ⟨held, -⟩
        exact absurd held noFields
  | some fields =>
      have settles := settles_load loader defined
      obtain ⟨members, held⟩ := definedFields?_eq_some_iff.mp defined
      constructor
      · rintro ⟨schema, loaded⟩
        rw [loaded] at settles
        exact ⟨⟨members, fields, held⟩, settles.accepts⟩
      · rintro ⟨-, sound⟩
        exact settles.exists_ok sound

end Loader

end DocShape
