import DocShape.Proofs.Loading
import DocShape.Proofs.PlacedEntries

/-! Loading a definition by two loaders. Only the names that it gives to resolvers matter, and
the loadings end alike unless one of them lacks a resolver that the other has. -/

set_option autoImplicit false

namespace DocShape

open Json (Value)

variable {ρ τ : Type}

/-! ## The names that a definition gives -/

namespace Entry

/-- The name of the resolver, where the type is that of custom fields. -/
def declaredResolver? (value : Value) : Option String := do
  let members ← written? value
  let type ← (Entries.get? "type" members).bind text?
  if type = "custom" then (Entries.get? "resolver" members).bind text? else none

private theorem declaredResolver?_of_ofValue {value : Value} {entry : Entry}
    (decoded : ofValue value = .ok entry) :
    declaredResolver? value = if entry.type = "custom" then entry.resolver else none := by
  obtain ⟨members, written, decodedMembers⟩ := written_of_ofValue decoded
  obtain ⟨-, type, typed, rfl⟩ := ofMembers_eq_ok_iff.mp decodedMembers
  simp only [declaredResolver?, written, typed, text?, Option.bind_eq_bind, Option.bind_some]
  rfl

/-- What is wrong with an entry of itself is never that a resolver is not known. -/
theorem read_cases_fault (path : String) (value : Value) :
    (∃ fault, read path value = .error (.malformed path fault) ∧
      ∀ name, fault ≠ .unknownResolver name) ∨
    ∃ entry, read path value = .ok entry := by
  unfold read
  split
  · exact .inl ⟨_, rfl, by simp⟩
  · rename_i entry decoded
    split
    · rename_i fault placed
      refine .inl ⟨fault, rfl, ?_⟩
      rintro name rfl
      unfold misplaced? at placed
      split_ifs at placed <;> simp at placed
    · exact .inr ⟨entry, rfl⟩

end Entry

/-- The names of resolvers in these entries. -/
def resolverNamesIn (entries : List PlacedEntry) : List String :=
  entries.filterMap fun one => Entry.declaredResolver? one.value

private theorem resolverNamesIn_mono {entries others : List PlacedEntry}
    (included : entries ⊆ others) :
    resolverNamesIn entries ⊆ resolverNamesIn others := by
  intro name listed
  obtain ⟨one, member, given⟩ := List.mem_filterMap.mp listed
  exact List.mem_filterMap.mpr ⟨one, included member, given⟩

/-- The names of resolvers that a definition gives. -/
def Json.Value.resolverNames (definition : Value) : List String :=
  resolverNamesIn definition.entries

namespace Loader

/-! ## Loading by another loader -/

section

variable {α β : Type} (names : List String) (loader : Loader ρ) (other : Loader τ)

/-- How a definition of these names loads by another loader, if resolvers are exchanged by
`change`. It ends in the same way, unless a resolver was missing that the other one has. -/
inductive Follows (change : α → β) : Except Error α → Except Error β → Prop where
  | loaded {value : α} : Follows change (.ok value) (.ok (change value))
  | refused {path : String} {fault : SchemaFault} (known : ∀ name, fault ≠ .unknownResolver name) :
      Follows change (malformed path fault) (malformed path fault)
  | missing {path name : String} (given : name ∈ names)
      (unknown : Entries.get? name loader.resolvers = none)
      (still : Entries.get? name other.resolvers = none) :
      Follows change (malformed path (.unknownResolver name))
        (malformed path (.unknownResolver name))
  | found {path name : String} {result : Except Error β} (given : name ∈ names)
      (unknown : Entries.get? name loader.resolvers = none)
      (known : Entries.get? name other.resolvers ≠ none) :
      Follows change (malformed path (.unknownResolver name)) result

end

variable {α β γ δ : Type} {names : List String} {loader : Loader ρ} {other : Loader τ}

theorem Follows.bind {change : α → β} {changeNext : γ → δ} {first : Except Error α}
    {first' : Except Error β} {next : α → Except Error γ} {next' : β → Except Error δ}
    (here : Follows names loader other change first first')
    (later : ∀ value, Follows names loader other changeNext (next value) (next' (change value))) :
    Follows names loader other changeNext (first >>= next) (first' >>= next') := by
  cases here with
  | loaded => exact later _
  | refused known => exact .refused known
  | missing given unknown still => exact .missing given unknown still
  | found given unknown known => exact .found given unknown known

/-- The other loader has the resolvers of these names, exchanged, and maybe more. -/
def Keeps (names : List String) (loader : Loader ρ) (other : Loader τ) (change : ρ → τ) : Prop :=
  ∀ name ∈ names, ∀ resolver, Entries.get? name loader.resolvers = some resolver →
    Entries.get? name other.resolvers = some (change resolver)

variable {change : ρ → τ}

private theorem follows_findResolver (kept : Keeps names loader other change) (path : String)
    {entry : Entry}
    (given : ∀ name, entry.resolver = some name → name ∈ names) :
    Follows names loader other change (loader.findResolver path entry)
      (other.findResolver path entry) := by
  unfold findResolver
  cases held : entry.resolver with
  | none => exact .refused (by simp)
  | some name =>
      have here := given name held
      cases registered : Entries.get? name loader.resolvers with
      | some resolver =>
          simp only [registered, kept name here resolver registered]
          exact .loaded
      | none =>
          simp only [registered]
          cases known : Entries.get? name other.resolvers with
          | none => exact .missing here registered known
          | some resolver => exact .found here registered (by simp [known])

-- These follow the recursion of the loader and end by the same measures.
mutual

private theorem follows_loadField (kept : Keeps names loader other change) (path : String)
    (value : Value)
    (given : resolverNamesIn (entriesFrom path false value) ⊆ names) :
    Follows names loader other (Field.map change) (loader.loadField path value)
      (other.loadField path value) := by
  rw [loadField_eq, loadField_eq]
  rcases Entry.read_cases_fault path value with ⟨fault, failed, known⟩ | ⟨entry, read⟩
  · rw [failed]
    exact .refused known
  have decoded := Entry.ofValue_of_read read
  rw [read]
  simp only [bind, Except.bind]
  split
  · rename_i isArray
    cases held : entry.element with
    | none => exact .refused (by simp)
    | some element =>
        have smaller := Entry.sizeOf_element_lt decoded held
        rw [entriesFrom_of_array decoded isArray held] at given
        have below := List.Subset.trans (resolverNamesIn_mono (List.subset_cons_self _ _)) given
        have inside := follows_loadElement kept (KeyPath.anyItem path) element below
        exact inside.bind fun _ => .loaded
  · rename_i noArray
    have smaller := Entry.fieldsSize_lt decoded
    exact (follows_loadItem kept path value entry false decoded noArray given).bind fun _ => .loaded
termination_by 2 * sizeOf value

private theorem follows_loadElement (kept : Keeps names loader other change) (path : String)
    (value : Value)
    (given : resolverNamesIn (entriesFrom path true value) ⊆ names) :
    Follows names loader other (ItemKind.map change) (loader.loadElement path value)
      (other.loadElement path value) := by
  rw [loadElement_eq, loadElement_eq]
  rcases Entry.read_cases_fault path value with ⟨fault, failed, known⟩ | ⟨entry, read⟩
  · rw [failed]
    exact .refused known
  have decoded := Entry.ofValue_of_read read
  rw [read]
  simp only [bind, Except.bind]
  split
  · exact .refused (by simp)
  · split
    · exact .refused (by simp)
    · rename_i noArray
      have smaller := Entry.fieldsSize_lt decoded
      exact follows_loadItem kept path value entry true decoded noArray given
termination_by 2 * sizeOf value

private theorem follows_loadItem (kept : Keeps names loader other change) (path : String)
    (value : Value) (entry : Entry) (inArray : Bool) (decoded : Entry.ofValue value = .ok entry)
    (noArray : entry.type ≠ "array")
    (given : resolverNamesIn (entriesFrom path inArray value) ⊆ names) :
    Follows names loader other (ItemKind.map change) (loader.loadItem path entry)
      (other.loadItem path entry) := by
  by_cases isObject : entry.type = "object"
  · rw [loadItem_object loader path isObject, loadItem_object other path isObject]
    cases held : entry.fields with
    | none => exact .refused (by simp)
    | some fields =>
        have size : entry.fieldsSize = sizeOf fields := by simp [Entry.fieldsSize, held]
        rw [entriesFrom_of_object decoded isObject held] at given
        simp only
        split
        · exact .refused (by simp)
        · have below := List.Subset.trans (resolverNamesIn_mono (List.subset_cons_self _ _)) given
          refine (follows_loadFields kept path fields below).bind fun declared => ?_
          rw [← Schema.map_ofPairs]
          exact .loaded
  by_cases isCustom : entry.type = "custom"
  · rw [loadItem_custom loader path isCustom, loadItem_custom other path isCustom]
    have givenHere : ∀ name, entry.resolver = some name → name ∈ names := by
      intro name held
      apply given
      rw [entriesFrom_of_scalar decoded isObject noArray]
      simp [resolverNamesIn, Entry.declaredResolver?_of_ofValue decoded, isCustom, held]
    exact (follows_findResolver kept path givenHere).bind fun _ => .loaded
  · rw [loadItem_other loader path isObject isCustom, loadItem_other other path isObject isCustom]
    split
    · exact .loaded
    · exact .refused (by simp)
termination_by 2 * entry.fieldsSize + 1

private theorem follows_loadFields (kept : Keeps names loader other change) (path : String) :
    (entries : List (String × Value)) →
    resolverNamesIn (entriesIn path entries) ⊆ names →
    Follows names loader other (mapFields change) (loader.loadFields path entries)
      (other.loadFields path entries)
  | [], _ => by
      rw [loadFields, loadFields]
      exact .loaded
  | (name, value) :: rest, given => by
      rw [loadFields, loadFields]
      rw [entriesIn] at given
      have here := List.Subset.trans (resolverNamesIn_mono (List.subset_append_left _ _)) given
      have later := List.Subset.trans (resolverNamesIn_mono (List.subset_append_right _ _)) given
      refine (follows_loadField kept (KeyPath.join path name) value here).bind fun field => ?_
      refine (follows_loadFields kept path rest later).bind fun fields => ?_
      rw [← mapFields_cons]
      exact .loaded
termination_by entries => 2 * sizeOf entries

end

private theorem follows_load {definition : Value}
    (kept : Keeps definition.resolverNames loader other change) :
    Follows definition.resolverNames loader other (Schema.map change) (loader.load definition)
      (other.load definition) := by
  unfold load
  cases defined : definedFields? definition with
  | none => exact .refused (by simp)
  | some fields =>
      have given : resolverNamesIn (entriesIn "" fields) ⊆ definition.resolverNames := by
        simp only [Value.resolverNames, Value.entries, defined]
        exact List.Subset.refl _
      refine (follows_loadFields kept "" fields given).bind fun declared => ?_
      rw [← Schema.map_ofPairs]
      exact .loaded

/-! ## Loading with more names known -/

variable {definition : Value} {schema : Schema ρ} {error : Error} {path name : String}

theorem missing_of_load
    (failed : loader.load definition = .error (.malformed path (.unknownResolver name))) :
    Entries.get? name loader.resolvers = none := by
  have follows : Follows definition.resolverNames loader loader (Schema.map id)
      (loader.load definition) (loader.load definition) :=
    follows_load fun _ _ _ => id
  rw [failed] at follows
  cases follows with
  | refused known => exact absurd rfl (known name)
  | missing _ unknown _ => exact unknown
  | found _ unknown _ => exact unknown

/-- A schema that was loaded stays as it is while its resolvers do. -/
theorem load_of_keeps {extended : Loader ρ}
    (kept : Keeps definition.resolverNames loader extended id)
    (loaded : loader.load definition = .ok schema) : extended.load definition = .ok schema := by
  have follows := follows_load kept
  rw [loaded] at follows
  generalize extended.load definition = result at follows ⊢
  cases follows with
  | loaded => rw [Schema.map_id]

theorem load_congr {extended : Loader ρ}
    (same : ∀ name ∈ definition.resolverNames,
      Entries.get? name extended.resolvers = Entries.get? name loader.resolvers) :
    extended.load definition = loader.load definition := by
  have kept : Keeps definition.resolverNames loader extended id := fun name given resolver found =>
    (same name given).trans found
  have follows := follows_load kept
  generalize loader.load definition = result, extended.load definition = result' at follows ⊢
  cases follows with
  | loaded => rw [Schema.map_id]
  | refused | missing => rfl
  | found given unknown known => exact absurd ((same _ given).trans unknown) known

/-- The names that a loader knows, without what they stand for. -/
def bare (loader : Loader ρ) : Loader Unit :=
  ⟨loader.resolvers.map fun one => (one.1, ())⟩

private theorem get?_bare (loader : Loader ρ) (name : String) :
    Entries.get? name loader.bare.resolvers =
      (Entries.get? name loader.resolvers).map fun _ => () :=
  Entries.get?_map (fun _ => ()) name loader.resolvers

private theorem load_bare_error_iff :
    loader.bare.load definition = .error error ↔ loader.load definition = .error error := by
  have kept : Keeps definition.resolverNames loader loader.bare fun _ => () :=
    fun name _ resolver found => by rw [get?_bare, found]; rfl
  have follows := follows_load kept
  generalize loader.load definition = result, loader.bare.load definition = result' at follows ⊢
  cases follows with
  | loaded => simp
  | refused | missing => simp [malformed]
  | found given unknown known =>
      rw [get?_bare, unknown] at known
      exact absurd rfl known

/-- What a loading blames stays to blame, unless it is a resolver that has become known. What
the resolvers are does not matter. -/
theorem error_of_load_of_knows {extended : Loader ρ}
    (grows : ∀ name, Entries.get? name loader.resolvers ≠ none →
      Entries.get? name extended.resolvers ≠ none)
    (failed : loader.load definition = .error error) :
    extended.load definition = .error error ∨
      ∃ path name, error = .malformed path (.unknownResolver name) ∧
        Entries.get? name extended.resolvers ≠ none := by
  have kept : Keeps definition.resolverNames loader extended.bare fun _ => () := by
    intro name _ resolver found
    obtain ⟨held, known⟩ := Option.ne_none_iff_exists'.mp (grows name (by simp [found]))
    rw [get?_bare, known]
    rfl
  have follows := follows_load kept
  rw [failed] at follows
  rw [← load_bare_error_iff]
  generalize extended.bare.load definition = result at follows ⊢
  cases follows with
  | refused | missing => exact .inl rfl
  | found given unknown known =>
      refine .inr ⟨_, _, rfl, fun none => known ?_⟩
      rw [get?_bare, none]
      rfl

end Loader

end DocShape
