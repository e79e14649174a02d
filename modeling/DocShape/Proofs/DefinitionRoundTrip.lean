import DocShape.Proofs.Loading

/-! Schemas written out as definitions. Loading what was written gives the schema
back, and refuses an object without fields at the path at which a validation
reports it. -/

set_option autoImplicit false

namespace DocShape

open Json (Value)

variable {σ ρ : Type}

/-- An entry says that it is optional only where it is. -/
def writtenEntry (type : String) (optional : Bool) (parts : List (String × Value)) : Value :=
  .object (("type", .string type) :: (if optional then [("optional", .bool true)] else []) ++ parts)

mutual

/-- The members that the entry of a kind has beside its type. -/
def ItemKind.writtenParts (nameOf : ρ → String) : ItemKind ρ → List (String × Value)
  | .scalar _ => []
  | .object ⟨fields⟩ => [("fields", .object (writtenFields nameOf fields))]
  | .custom resolver => [("resolver", .string (nameOf resolver))]

def FieldKind.writtenParts (nameOf : ρ → String) : FieldKind ρ → List (String × Value)
  | .item kind => kind.writtenParts nameOf
  | .array element =>
      [("element", writtenEntry element.name false (element.writtenParts nameOf))]

def writtenFields (nameOf : ρ → String) : List (String × Field ρ) → List (String × Value)
  | [] => []
  | (name, ⟨kind, optional⟩) :: rest =>
      (name, writtenEntry kind.name optional (kind.writtenParts nameOf)) ::
        writtenFields nameOf rest

end

/-- The definition document of a schema, with a name for each resolver. -/
def Schema.definition (nameOf : ρ → String) (schema : Schema ρ) : Value :=
  .object [("fields", .object (writtenFields nameOf schema.fields))]

namespace Entry

/-- What the entry of a kind says. -/
def ofItemKind (nameOf : ρ → String) (optional : Bool) (kind : ItemKind ρ) : Entry where
  type := kind.name
  optional := if optional then some true else none
  fields := match kind with
    | .object ⟨fields⟩ => some (writtenFields nameOf fields)
    | _ => none
  element := none
  resolver := match kind with
    | .custom resolver => some (nameOf resolver)
    | _ => none

private theorem read_item (nameOf : ρ → String) (path : String) (optional : Bool)
    (kind : ItemKind ρ) :
    read path (writtenEntry kind.name optional (kind.writtenParts nameOf)) =
      .ok (ofItemKind nameOf optional kind) := by
  cases kind with
  | scalar kind => cases kind <;> cases optional <;> rfl
  | object schema =>
      obtain ⟨fields⟩ := schema
      cases optional <;> rfl
  | custom resolver => cases optional <;> rfl

private theorem read_array (nameOf : ρ → String) (path : String) (optional : Bool)
    (element : ItemKind ρ) :
    read path (writtenEntry "array" optional ((FieldKind.array element).writtenParts nameOf)) =
      .ok {
        type := "array"
        optional := if optional then some true else none
        fields := none
        element := some (writtenEntry element.name false (element.writtenParts nameOf))
        resolver := none } := by
  cases optional <;> rfl

end Entry

namespace Loader

/-- Each of the resolvers is registered under the name that it carries. -/
def Knows (loader : Loader ρ) (resolvers : List (String × ρ)) : Prop :=
  ∀ resolver ∈ resolvers, Entries.get? resolver.1 loader.resolvers = some resolver.2

theorem Knows.of_append {loader : Loader ρ} {resolvers others : List (String × ρ)}
    (known : loader.Knows (resolvers ++ others)) : loader.Knows resolvers ∧ loader.Knows others :=
  List.forall_mem_append.mp known

/-- What was loaded, unless an object without fields is found at a path. -/
def unlessEmpty {α : Type} (found : Option String) (loaded : α) : Except Error α :=
  match found with
  | some path => malformed path .noFields
  | none => .ok loaded

private theorem unlessEmpty_bind {α β : Type} (found : Option String) (loaded : α)
    (change : α → β) :
    (do return change (← unlessEmpty found loaded)) = unlessEmpty found (change loaded) := by
  cases found <;> rfl

private theorem loadField_writtenItem {loader : Loader ρ} {path : String}
    {kind : ItemKind (String × ρ)}
    {optional : Bool} {loaded : Except Error (ItemKind ρ)}
    (built : loader.loadItem path (Entry.ofItemKind Prod.fst optional kind) = loaded) :
    loader.loadField path (writtenEntry kind.name optional (kind.writtenParts Prod.fst)) =
      (do return ⟨.item (← loaded), optional⟩) := by
  have noArray : (Entry.ofItemKind Prod.fst optional kind).type ≠ "array" := kind.name_ne_array
  have kept : (Entry.ofItemKind Prod.fst optional kind).optional.getD false = optional := by
    cases optional <;> rfl
  rw [loadField_eq, Entry.read_item]
  simp only [bind, Except.bind, if_neg noArray, built, kept]

private theorem loadField_writtenArray {loader : Loader ρ} {path : String}
    {element : ItemKind (String × ρ)} {optional : Bool} {loaded : Except Error (ItemKind ρ)}
    (built : loader.loadItem (KeyPath.anyItem path) (Entry.ofItemKind Prod.fst false element) =
      loaded) :
    loader.loadField path
        (writtenEntry "array" optional ((FieldKind.array element).writtenParts Prod.fst)) =
      (do return ⟨.array (← loaded), optional⟩) := by
  have noArray : (Entry.ofItemKind Prod.fst false element).type ≠ "array" := element.name_ne_array
  have required : ¬ (Entry.ofItemKind Prod.fst false element).optional.isSome := nofun
  have loadedElement : loader.loadElement (KeyPath.anyItem path)
      (writtenEntry element.name false (element.writtenParts Prod.fst)) = loaded := by
    rw [loadElement_eq, Entry.read_item]
    simp only [bind, Except.bind, if_neg required, if_neg noArray, built]
  rw [loadField_eq, Entry.read_array, ← loadedElement]
  cases optional <;> rfl

private theorem ofPairs_mapFields {τ : Type} (change : ρ → τ) {fields : List (String × Field ρ)}
    (distinct : (Entries.names fields).Nodup) :
    Schema.ofPairs (mapFields change fields) = (Schema.mk fields).map change := by
  rw [← Schema.map_ofPairs, Schema.ofPairs, Entries.ofPairs_of_nodup distinct]

mutual

private theorem loadItem_written {loader : Loader ρ} : (kind : ItemKind (String × ρ)) →
    kind.UniqueNames → loader.Knows kind.resolvers → ∀ path optional,
      loader.loadItem path (Entry.ofItemKind Prod.fst optional kind) =
        unlessEmpty (kind.emptyObject? path) (kind.map Prod.snd)
  | .scalar kind, _, _, path, optional => by
      rw [loadItem]
      cases kind <;> rfl
  | .object ⟨[]⟩, _, _, path, optional => by
      rw [loadItem_object loader path rfl]
      rfl
  | .object ⟨(name, ⟨kind, wasOptional⟩) :: rest⟩, unique, known, path, optional => by
      have declared := loadFields_written ((name, ⟨kind, wasOptional⟩) :: rest) unique.2 known path
      have kept := ofPairs_mapFields Prod.snd unique.1
      rw [loadItem_object loader path rfl]
      change (do return ItemKind.object (.ofPairs (← loader.loadFields path _))) = _
      rw [declared, unlessEmpty_bind, kept]
      rfl
  | .custom resolver, _, known, path, optional => by
      have registered := known resolver List.mem_cons_self
      rw [loadItem_custom loader path rfl, findResolver]
      simp only [Entry.ofItemKind, registered]
      rfl

private theorem loadField_written {loader : Loader ρ} : (kind : FieldKind (String × ρ)) →
    kind.UniqueNames → loader.Knows kind.resolvers → ∀ path optional,
      loader.loadField path (writtenEntry kind.name optional (kind.writtenParts Prod.fst)) =
        unlessEmpty (kind.emptyObject? path) ⟨kind.map Prod.snd, optional⟩
  | .item kind, unique, known, path, optional =>
      (loadField_writtenItem (loadItem_written kind unique known path optional)).trans
        (unlessEmpty_bind _ _ fun kind => Field.mk (.item kind) optional)
  | .array element, unique, known, path, optional =>
      (loadField_writtenArray
        (loadItem_written element unique known (KeyPath.anyItem path) false)).trans
        (unlessEmpty_bind _ _ fun kind => Field.mk (.array kind) optional)

private theorem loadFields_written {loader : Loader ρ} :
    (fields : List (String × Field (String × ρ))) →
    UniqueNamesIn fields → loader.Knows (resolversIn fields) → ∀ path,
      loader.loadFields path (writtenFields Prod.fst fields) =
        unlessEmpty (emptyObjectIn? path fields) (mapFields Prod.snd fields)
  | [], _, _, path => by
      rw [writtenFields, loadFields]
      rfl
  | (name, ⟨kind, optional⟩) :: rest, unique, known, path => by
      obtain ⟨knownHere, knownLater⟩ := Knows.of_append known
      have here := loadField_written kind unique.1 knownHere (KeyPath.join path name) optional
      have later := loadFields_written rest unique.2 knownLater path
      rw [writtenFields, loadFields, here, later, emptyObjectIn?, mapFields]
      -- The loader and the search both look below the field before they go on.
      cases kind.emptyObject? (KeyPath.join path name) with
      | some found => rfl
      | none => cases emptyObjectIn? path rest <;> rfl

end

theorem load_written {loader : Loader ρ} {schema : Schema (String × ρ)}
    (unique : schema.UniqueNames) (known : loader.Knows schema.resolvers) :
    loader.load (schema.definition Prod.fst) =
      unlessEmpty (schema.emptyObject? "") (schema.map Prod.snd) := by
  obtain ⟨fields⟩ := schema
  have declared := loadFields_written fields unique.2 known ""
  have kept := ofPairs_mapFields Prod.snd unique.1
  change (do return Schema.ofPairs (← loader.loadFields "" (writtenFields Prod.fst fields))) = _
  rw [declared, unlessEmpty_bind, kept]
  rfl

end Loader

/-- A loader that knows the resolvers of a schema reads the schema off its
definition. It refuses the definition of a malformed one at the path at which
every validation without a root key does. -/
theorem load_definition (loader : Loader (Resolver σ))
    (schema : Schema.Distinct (String × Resolver σ)) (known : loader.Knows schema.resolvers) :
    (¬ schema.Malformed →
      loader.load (schema.definition Prod.fst) = .ok (schema.map Prod.snd)) ∧
    (schema.Malformed → ∃ path,
      loader.load (schema.definition Prod.fst) = .error (.malformed path .noFields) ∧
      ∀ (options : Options) (document : Value) (state : σ), options.rootKey = none →
        (validate (schema.map Prod.snd) options document).run state =
          (.error (.malformed path .emptyObject), state)) := by
  have loaded := Loader.load_written schema.unique known
  constructor
  · intro wellFormed
    have sound : schema.emptyObject? "" = none := Schema.emptyObject?_eq_none_iff.mpr wellFormed
    rw [loaded, sound]
    rfl
  · intro malformed
    cases found : schema.emptyObject? "" with
    | none => exact absurd malformed (Schema.emptyObject?_eq_none_iff.mp found)
    | some path =>
        refine ⟨path, by rw [loaded, found]; rfl, ?_⟩
        intro options document state noRootKey
        have outermost : options.path = "" := by simp [Options.path, noRootKey]
        have reported : (schema.map Prod.snd).emptyObject? options.path = some path := by
          rw [outermost, Schema.emptyObject?_map, found]
        rw [validate_malformed reported]
        rfl

def Resolver.nonempty : Resolver Unit := fun value path =>
  match value with
  | .string "" => pure (.error ("nothing stands at " ++ path))
  | other => pure (.ok other)

def Loader.catalog : Loader (Resolver Unit) :=
  Loader.empty.register "nonempty" .nonempty

def Schema.catalog (size : Schema (String × Resolver Unit)) : Schema (String × Resolver Unit) :=
  ⟨[("shelf", .custom ("nonempty", .nonempty)),
    ("books", .withOptional true (.array (.object
      ⟨[("title", .string), ("size", .object size)]⟩)))]⟩

/-- The catalog is read off its definition if the size of a book has a part. -/
theorem load_definition_catalog :
    let sized := Schema.catalog ⟨[("pages", .number)]⟩
    let unsized := Schema.catalog .empty
    sized.UniqueNames ∧ unsized.UniqueNames ∧
      Loader.catalog.Knows sized.resolvers ∧ Loader.catalog.Knows unsized.resolvers ∧
      ¬ sized.Malformed ∧ unsized.Malformed ∧
      Loader.catalog.load (sized.definition Prod.fst) = .ok (sized.map Prod.snd) ∧
      Loader.catalog.load (unsized.definition Prod.fst) =
        .error (.malformed "books[].size" .noFields) ∧
      (validate (unsized.map Prod.snd) {} .null).run () =
        (.error (.malformed "books[].size" .emptyObject), ()) := by
  intro sized unsized
  have uniqueSized : sized.UniqueNames := by decide
  have uniqueUnsized : unsized.UniqueNames := by decide
  have known (schema : Schema (String × Resolver Unit))
      (listing : schema.resolvers = [("nonempty", .nonempty)]) :
      Loader.catalog.Knows schema.resolvers := by
    intro resolver listed
    rw [listing, List.mem_singleton] at listed
    subst listed
    rfl
  have wellFormed : ¬ sized.Malformed := (sized.emptyObjects_eq_nil_iff "").mp rfl
  have malformed : unsized.Malformed := by
    by_contra wellFormed
    cases (unsized.emptyObjects_eq_nil_iff "").mpr wellFormed
  have reads := (load_definition Loader.catalog ⟨sized, uniqueSized⟩ (known _ rfl)).1 wellFormed
  obtain ⟨path, refused, reported⟩ :=
    (load_definition Loader.catalog ⟨unsized, uniqueUnsized⟩ (known _ rfl)).2 malformed
  have place : (validate (unsized.map Prod.snd) {} .null).run () =
      (.error (.malformed "books[].size" .emptyObject), ()) := rfl
  have samePlace : "books[].size" = path := by
    have same := congrArg Prod.fst (place.symm.trans (reported {} .null () rfl))
    simpa using same
  subst samePlace
  exact ⟨uniqueSized, uniqueUnsized, known _ rfl, known _ rfl, wellFormed, malformed, reads,
    refused, place⟩

end DocShape
