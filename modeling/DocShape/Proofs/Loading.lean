import DocShape.Definition.Loader
import DocShape.Proofs.Resolvers

/-! What a loader builds. Each of its functions is told by an equation, and one
pass through all of them shows that a loading blames the definition or yields a
kind built in one of three ways. What is true of every loaded schema follows. -/

set_option autoImplicit false

namespace DocShape

open Json (Value)

variable {σ ρ : Type}

/-- The kind of the field itself, or of the items of its array. -/
def FieldKind.itemKind : FieldKind ρ → ItemKind ρ
  | .item kind => kind
  | .array element => element

private theorem FieldKind.emptyObjects_eq_nil {kind : FieldKind ρ}
    (nothing : ∀ path, kind.itemKind.emptyObjects path = []) (path : String) :
    kind.emptyObjects path = [] := by
  cases kind with
  | item kind => exact nothing path
  | array element => exact nothing (KeyPath.anyItem path)

private theorem emptyObjectsIn_eq_nil {fields : List (String × Field ρ)}
    (nothing : ∀ pair ∈ fields, ∀ path, pair.2.kind.itemKind.emptyObjects path = [])
    (path : String) : emptyObjectsIn path fields = [] := by
  induction fields with
  | nil => rfl
  | cons head rest ih =>
      obtain ⟨name, ⟨kind, optional⟩⟩ := head
      obtain ⟨here, later⟩ := List.forall_mem_cons.mp nothing
      rw [emptyObjectsIn, FieldKind.emptyObjects_eq_nil here, ih later]
      rfl

private theorem FieldKind.resolvers_eq (kind : FieldKind ρ) :
    kind.resolvers = kind.itemKind.resolvers := by
  cases kind <;> rfl

private theorem FieldKind.uniqueNames_iff {kind : FieldKind ρ} :
    kind.UniqueNames ↔ kind.itemKind.UniqueNames := by
  cases kind <;> rfl

namespace Loader

variable {loader : Loader ρ} {path : String} {value : Value} {entry : Entry}

/-! ## The functions of the loader -/

theorem loadField_eq (loader : Loader ρ) (path : String) (value : Value) :
    loader.loadField path value = (do
      let entry ← Entry.read path value
      let optional := entry.optional.getD false
      if entry.type = "array" then
        match entry.element with
        | none => malformed path .noElement
        | some element => do
            let kind ← loader.loadElement (KeyPath.anyItem path) element
            return { kind := .array kind, optional }
      else do
        let kind ← loader.loadItem path entry
        return { kind := .item kind, optional }) := by
  rw [loadField]
  split
  · rename_i error failed
    rw [failed]
    rfl
  · rename_i entry decoded
    conv_rhs => rw [decoded]
    simp only [bind, Except.bind]
    split
    · split <;> rename_i held <;> simp only [held]
    · rfl

theorem loadElement_eq (loader : Loader ρ) (path : String) (value : Value) :
    loader.loadElement path value = (do
      let entry ← Entry.read path value
      if entry.optional.isSome then malformed path .optionalElement
      else if entry.type = "array" then malformed path .nestedArray
      else loader.loadItem path entry) := by
  rw [loadElement]
  split
  · rename_i error failed
    rw [failed]
    rfl
  · rename_i entry decoded
    conv_rhs => rw [decoded]
    rfl

theorem loadItem_object (loader : Loader ρ) (path : String) (type : entry.type = "object") :
    loader.loadItem path entry =
      match entry.fields with
      | none => malformed path .noFields
      | some fields =>
          if fields.isEmpty then malformed path .noFields
          else do
            let declared ← loader.loadFields path fields
            return .object (.ofPairs declared) := by
  rw [loadItem]
  simp only [type]
  split <;> rename_i held <;> simp only [held]

theorem loadItem_custom (loader : Loader ρ) (path : String) (type : entry.type = "custom") :
    loader.loadItem path entry = (do
      let resolver ← loader.findResolver path entry
      return .custom resolver) := by
  rw [loadItem]
  simp only [type]

def scalarOf? (type : String) : Option Scalar :=
  match type with
  | "string" => some .string
  | "number" => some .number
  | "bool" => some .bool
  | "boolean" => some .bool
  | _ => none

theorem loadItem_other (loader : Loader ρ) (path : String) (noObject : entry.type ≠ "object")
    (noCustom : entry.type ≠ "custom") :
    loader.loadItem path entry =
      match scalarOf? entry.type with
      | some kind => .ok (.scalar kind)
      | none => malformed path (.unknownType entry.type) := by
  rw [loadItem]
  split <;> simp_all [scalarOf?]

/-! ## What they build -/

/-- The kinds that a loader can build. An object has fields, and a custom kind is
of a registered resolver. -/
inductive Builds (loader : Loader ρ) : ItemKind ρ → Prop where
  | scalar {kind : Scalar} : Builds loader (.scalar kind)
  | object {declared : List (String × Field ρ)} (inhabited : declared ≠ [])
      (each : ∀ pair ∈ declared, Builds loader pair.2.kind.itemKind) :
      Builds loader (.object (.ofPairs declared))
  | custom {name : String} {resolver : ρ}
      (registered : Entries.get? name loader.resolvers = some resolver) :
      Builds loader (.custom resolver)

/-- The fields of the entries, one for each name, of kinds that a loader can build. -/
def BuildsFields (loader : Loader ρ) (entries : List (String × Value))
    (declared : List (String × Field ρ)) : Prop :=
  Entries.names declared = Entries.names entries ∧
    ∀ pair ∈ declared, loader.Builds pair.2.kind.itemKind

/-- A loading yields something good, or it fails by a fault of the definition. -/
def Yields {α : Type} (good : α → Prop) : Except Error α → Prop
  | .ok loaded => good loaded
  | .error error => ∃ path fault, error = .malformed path fault

private theorem yields_malformed {α : Type} {good : α → Prop} (path : String)
    (fault : SchemaFault) :
    Yields good (malformed path fault) :=
  ⟨path, fault, rfl⟩

theorem Yields.bind {α β : Type} {first : Except Error α} {next : α → Except Error β}
    {good : α → Prop} {better : β → Prop} (here : Yields good first)
    (later : ∀ value, first = .ok value → good value → Yields better (next value)) :
    Yields better (first >>= next) := by
  cases first with
  | error error => exact here
  | ok value => exact later value rfl here

private theorem yields_read (path : String) (value : Value) :
    Yields (fun _ => True) (Entry.read path value) := by
  unfold Entry.read
  split
  · exact yields_malformed path _
  · split
    · exact yields_malformed path _
    · trivial

private theorem yields_findResolver (loader : Loader ρ) (path : String) (entry : Entry) :
    Yields (fun resolver => loader.Builds (.custom resolver)) (loader.findResolver path entry) := by
  unfold findResolver
  split
  · exact yields_malformed path _
  · split
    · exact yields_malformed path _
    · rename_i registered
      exact .custom registered

-- These follow the recursion of the loader and end by the same measures.
mutual

private theorem yields_loadField (loader : Loader ρ) (path : String) (value : Value) :
    Yields (fun field => loader.Builds field.kind.itemKind) (loader.loadField path value) := by
  rw [loadField_eq]
  refine (yields_read path value).bind ?_
  intro entry decoded _
  simp only
  split
  · split
    · exact yields_malformed path _
    · rename_i element held
      have smaller := Entry.sizeOf_element_lt (Entry.ofValue_of_read decoded) held
      refine (yields_loadElement loader (KeyPath.anyItem path) element).bind ?_
      intro kind _ built
      exact built
  · have smaller := Entry.fieldsSize_lt (Entry.ofValue_of_read decoded)
    refine (yields_loadItem loader path entry).bind ?_
    intro kind _ built
    exact built
termination_by 2 * sizeOf value

private theorem yields_loadElement (loader : Loader ρ) (path : String) (value : Value) :
    Yields loader.Builds (loader.loadElement path value) := by
  rw [loadElement_eq]
  refine (yields_read path value).bind ?_
  intro entry decoded _
  have smaller := Entry.fieldsSize_lt (Entry.ofValue_of_read decoded)
  split
  · exact yields_malformed path _
  · split
    · exact yields_malformed path _
    · exact yields_loadItem loader path entry
termination_by 2 * sizeOf value

private theorem yields_loadItem (loader : Loader ρ) (path : String) (entry : Entry) :
    Yields loader.Builds (loader.loadItem path entry) := by
  by_cases isObject : entry.type = "object"
  · rw [loadItem_object loader path isObject]
    split
    · exact yields_malformed path _
    · rename_i fields held
      have size : entry.fieldsSize = sizeOf fields := by simp [Entry.fieldsSize, held]
      split
      · exact yields_malformed path _
      · rename_i inhabited
        refine (yields_loadFields loader path fields).bind ?_
        intro declared _ built
        refine .object ?_ built.2
        intro nothing
        have noName := built.1
        simp_all [Entries.names]
  by_cases isCustom : entry.type = "custom"
  · rw [loadItem_custom loader path isCustom]
    refine (yields_findResolver loader path entry).bind ?_
    intro resolver _ built
    exact built
  · rw [loadItem_other loader path isObject isCustom]
    split
    · exact .scalar
    · exact yields_malformed path _
termination_by 2 * entry.fieldsSize + 1

private theorem yields_loadFields (loader : Loader ρ) (path : String) :
    (entries : List (String × Value)) →
    Yields (loader.BuildsFields entries) (loader.loadFields path entries)
  | [] => by
      rw [loadFields]
      exact ⟨rfl, by simp⟩
  | (name, value) :: rest => by
      rw [loadFields]
      refine (yields_loadField loader (KeyPath.join path name) value).bind ?_
      intro field _ built
      refine (yields_loadFields loader path rest).bind ?_
      intro others _ builtOthers
      exact ⟨congrArg (List.cons name) builtOthers.1,
        List.forall_mem_cons.mpr ⟨built, builtOthers.2⟩⟩
termination_by entries => 2 * sizeOf entries

end

/-- A loading ends by a fault of the definition, or in a schema built of its fields. -/
theorem yields_load (loader : Loader ρ) (definition : Value) :
    Yields (fun schema => ∃ declared, schema = .ofPairs declared ∧
      ∀ pair ∈ declared, loader.Builds pair.2.kind.itemKind) (loader.load definition) := by
  unfold load
  split
  · exact yields_malformed _ _
  · refine (yields_loadFields loader "" _).bind ?_
    intro declared _ built
    exact ⟨declared, rfl, built.2⟩

theorem Builds.emptyObjects_eq_nil {kind : ItemKind ρ} (built : loader.Builds kind)
    (path : String) : kind.emptyObjects path = [] := by
  induction built generalizing path with
  | scalar => rfl
  | @object declared inhabited _ ih =>
      have nothing := emptyObjectsIn_eq_nil
        (fun pair member => ih pair (Entries.mem_of_mem_ofPairs member)) path
      have some := Entries.ofPairs_ne_nil inhabited
      simp only [Schema.ofPairs]
      cases fields : Entries.ofPairs declared with
      | nil => exact absurd fields some
      | cons head rest => rwa [ItemKind.emptyObjects, ← fields]
  | custom => rfl

theorem Builds.uniqueNames {kind : ItemKind ρ} (built : loader.Builds kind) :
    kind.UniqueNames := by
  induction built with
  | scalar => trivial
  | object _ _ ih =>
      apply Schema.uniqueNames_ofPairs
      intro pair member
      exact FieldKind.uniqueNames_iff.mpr (ih pair member)
  | custom => trivial

theorem Builds.registered {kind : ItemKind ρ} (built : loader.Builds kind) :
    ∀ resolver ∈ kind.resolvers, ∃ name, Entries.get? name loader.resolvers = some resolver := by
  induction built with
  | scalar => simp [ItemKind.resolvers]
  | object _ _ ih =>
      intro resolver member
      obtain ⟨pair, listed, member⟩ := mem_resolversIn_iff.mp member
      rw [FieldKind.resolvers_eq] at member
      exact ih pair (Entries.mem_of_mem_ofPairs listed) resolver member
  | @custom name _ registered =>
      intro resolver member
      rw [ItemKind.resolvers, List.mem_singleton] at member
      exact ⟨name, member ▸ registered⟩

variable {definition : Value} {schema : Schema ρ}

private theorem builds_of_load (loaded : loader.load definition = .ok schema) :
    ∃ declared, schema = .ofPairs declared ∧
      ∀ pair ∈ declared, loader.Builds pair.2.kind.itemKind := by
  have yields := yields_load loader definition
  rwa [loaded] at yields

theorem malformed_of_load {error : Error} (failed : loader.load definition = .error error) :
    ∃ path fault, error = .malformed path fault := by
  have yields := yields_load loader definition
  rwa [failed] at yields

theorem uniqueNames_of_load (loaded : loader.load definition = .ok schema) :
    schema.UniqueNames := by
  obtain ⟨declared, rfl, built⟩ := builds_of_load loaded
  apply Schema.uniqueNames_ofPairs
  intro pair member
  exact FieldKind.uniqueNames_iff.mpr (built pair member).uniqueNames

theorem not_malformed_of_load (loaded : loader.load definition = .ok schema) :
    ¬ schema.Malformed := by
  obtain ⟨declared, rfl, built⟩ := builds_of_load loaded
  apply (Schema.emptyObjects_eq_nil_iff _ "").mp
  apply emptyObjectsIn_eq_nil
  intro pair member
  exact (built pair (Entries.mem_of_mem_ofPairs member)).emptyObjects_eq_nil

private theorem registered_of_load (loaded : loader.load definition = .ok schema) :
    ∀ resolver ∈ schema.resolvers, ∃ name, Entries.get? name loader.resolvers = some resolver := by
  obtain ⟨declared, rfl, built⟩ := builds_of_load loaded
  intro resolver member
  obtain ⟨pair, listed, member⟩ := mem_resolversIn_iff.mp member
  rw [FieldKind.resolvers_eq] at member
  exact (built pair (Entries.mem_of_mem_ofPairs listed)).registered resolver member

theorem resolvers_eq_nil_of_load (loaded : loader.load definition = .ok schema)
    (noResolver : loader.resolvers = []) : schema.resolvers = [] := by
  apply List.eq_nil_iff_forall_not_mem.mpr
  intro resolver member
  obtain ⟨name, registered⟩ := registered_of_load loaded resolver member
  rw [noResolver] at registered
  cases registered

end Loader

/-- A schema that was loaded is never found malformed later. Where no resolver is
registered, all that can go wrong is that a document is rejected. -/
theorem validate_loaded (loader : Loader (Resolver σ)) (definition : Value)
    (schema : Schema (Resolver σ)) (loaded : loader.load definition = .ok schema)
    (options : Options) (document : Value) (state : σ) :
    (∀ path fault, ((validate schema options document).run state).1 ≠
      .error (.malformed path fault)) ∧
    (loader.resolvers = [] → ∀ error,
      ((validate schema options document).run state).1 = .error error →
        (∃ violation, error = .rejected violation) ∧ error.severity = .reject) := by
  have unique := Loader.uniqueNames_of_load loaded
  have wellFormed := Loader.not_malformed_of_load loaded
  constructor
  · obtain ⟨calls, result, final, validates⟩ := exists_validates schema options document state
    rw [validates.run_validate unique]
    exact validates.ne_malformed wellFormed
  · intro noResolver error ended
    have noneHeld := Loader.resolvers_eq_nil_of_load loaded noResolver
    rcases validate_of_resolvers_nil unique noneHeld wellFormed options document state with
      accepted | ⟨violation, rejected⟩
    · rw [accepted] at ended
      cases ended
    · rw [rejected] at ended
      cases ended
      exact ⟨⟨violation, rfl⟩, rfl⟩

def loanDefinition : Value :=
  .object [("title", .string "loan"), ("fields", .object [
    ("reader", .object [("type", .string "object"), ("fields", .object [
      ("name", .array [.string "string", .bool true, .null, .null, .null])])]),
    ("books", .object [("element", .object [("type", .string "object"), ("fields", .object [
      ("pages", .object [("type", .string "number")])])]), ("type", .string "array")])])]

def Schema.loan : Schema (Resolver Unit) :=
  ⟨[("reader", .object ⟨[("name", .withOptional true .string)]⟩),
    ("books", .array (.object ⟨[("pages", .number)]⟩))]⟩

/-- The name of the reader is written as the array of its entry's values. -/
theorem validate_loaded_loan :
    let document : Value := .object [("books", .array [.object [("pages", .null)]]),
      ("reader", .object [])]
    let ended := ((validate Schema.loan ⟨true, some "body"⟩ document).run ()).1
    Loader.empty.load loanDefinition = .ok Schema.loan ∧
      (Loader.empty : Loader (Resolver Unit)).resolvers = [] ∧
      (∀ path fault, ended ≠ .error (.malformed path fault)) ∧
      ended = .error (.rejected (.missing "body.books[0].pages")) ∧
      (Error.rejected (.missing "body.books[0].pages")).severity = .reject := by
  intro document ended
  have loaded : Loader.empty.load loanDefinition = .ok Schema.loan := by
    simp [Loader.load, Loader.definedFields?, Loader.loadFields, Loader.loadField_eq,
      Loader.loadElement_eq, Loader.loadItem, Entry.read, Entry.ofValue, Entry.ofItems,
      Entry.ofMembers, Entry.checkMembers, Entry.checkMember, Entry.memberNames, Entry.text?,
      Entry.truth?, Entry.members?, Entry.present?, Entry.misplaced?, Entries.get?,
      loanDefinition, bind, Except.bind, pure, Except.pure]
    rfl
  obtain ⟨sound, rejects⟩ :=
    validate_loaded Loader.empty loanDefinition Schema.loan loaded ⟨true, some "body"⟩ document ()
  have rejected : ended = .error (.rejected (.missing "body.books[0].pages")) := rfl
  exact ⟨loaded, rfl, sound, rejected, (rejects rfl _ rejected).2⟩

end DocShape
