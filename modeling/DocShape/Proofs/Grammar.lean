import DocShape.Proofs.FirstFault

/-! Which definitions load. Those whose entries are objects load exactly if they
keep the rules for entries; an array of five values is taken for an entry as well,
and no other value is. -/

set_option autoImplicit false

namespace DocShape

open Json (Value)

variable {ρ : Type}

/-- A definition none of whose entries is an array loads exactly if it holds fields
and no entry has a fault. Else the definition itself or the first entry with a
fault is blamed. -/
theorem load_grammar (loader : Loader ρ) (definition : Value)
    (noArray : ∀ one ∈ definition.entries, ∀ items, one.value ≠ .array items) :
    ((∃ schema, loader.load definition = .ok schema) ↔
      (∃ members fields, definition = .object members ∧
        Entries.get? "fields" members = some (.object fields)) ∧
      ∀ one ∈ definition.entries, ¬ one.Faulty loader) ∧
    ((¬ ∃ members fields, definition = .object members ∧
        Entries.get? "fields" members = some (.object fields)) →
      loader.load definition = .error (.malformed "$definition" .noDefinition)) ∧
    (∀ before one after, definition.entries = before ++ one :: after →
      (∀ earlier ∈ before, ¬ earlier.Faulty loader) → one.Faulty loader →
      ∃ fault, loader.load definition = .error (.malformed one.path fault)) := by
  have sound_iff : ∀ one ∈ definition.entries, (one.Accepted loader ↔ ¬ one.Faulty loader) :=
    fun one listed => PlacedEntry.accepted_iff_not_faulty (noArray one listed)
  refine ⟨?accepts, ?noDefinition, ?first⟩
  case accepts =>
    rw [Loader.exists_ok_iff]
    exact and_congr_right fun _ => forall₂_congr sound_iff
  case noDefinition =>
    intro noFields
    apply Loader.load_of_definedFields_eq_none
    rw [Option.eq_none_iff_forall_ne_some]
    intro fields defined
    obtain ⟨members, held⟩ := Loader.definedFields?_eq_some_iff.mp defined
    exact noFields ⟨members, fields, held⟩
  case first =>
    intro before one after split sound faulty
    have listed : ∀ entry ∈ before ++ one :: after,
        (entry.Accepted loader ↔ ¬ entry.Faulty loader) :=
      split ▸ sound_iff
    cases defined : Loader.definedFields? definition with
    | none =>
        simp [Value.entries, defined] at split
    | some fields =>
        have settles := Loader.settles_load loader defined
        rw [split] at settles
        refine settles.first_refused ?_ ?_
        · intro earlier member
          exact (listed earlier (List.mem_append_left _ member)).mpr (sound earlier member)
        · rw [listed one (by simp)]
          exact not_not_intro faulty

def shelfLender : Value :=
  .object [("type", .string "custom"), ("resolver", .string "member")]

def shelfPages : Value :=
  .object [("type", .string "number"), ("optional", .bool true)]

def shelfBook : Value :=
  .object [("resolver", .null), ("type", .string "object"),
    ("fields", .object [("pages", shelfPages), ("lender", shelfLender)])]

def shelfBooks : Value :=
  .object [("element", shelfBook), ("type", .string "array")]

def shelfDefinition : Value :=
  .object [("fields", .object [("books", shelfBooks), ("note", .null)])]

/-- The note has a fault as well, but the resolver that is not known comes first. -/
theorem load_grammar_shelf :
    let before : List PlacedEntry := [⟨"books", false, shelfBooks⟩, ⟨"books[]", true, shelfBook⟩,
      ⟨"books[].pages", false, shelfPages⟩]
    let lender : PlacedEntry := ⟨"books[].lender", false, shelfLender⟩
    let loader : Loader (Resolver Unit) := .empty
    (∀ one ∈ shelfDefinition.entries, ∀ items, one.value ≠ .array items) ∧
      shelfDefinition.entries = before ++ lender :: [⟨"note", false, .null⟩] ∧
      (∀ earlier ∈ before, ¬ earlier.Faulty loader) ∧ lender.Faulty loader ∧
      (¬ ∃ schema, loader.load shelfDefinition = .ok schema) ∧
      ∃ fault, loader.load shelfDefinition = .error (.malformed "books[].lender" fault) := by
  intro before lender loader
  have pages : entriesFrom "books[].pages" false shelfPages =
      [⟨"books[].pages", false, shelfPages⟩] := entriesFrom_leaf rfl rfl
  have known : entriesFrom "books[].lender" false shelfLender = [lender] :=
    entriesFrom_leaf rfl rfl
  have book : entriesFrom "books[]" true shelfBook =
      [⟨"books[]", true, shelfBook⟩, ⟨"books[].pages", false, shelfPages⟩, lender] := by
    rw [entriesFrom_fields rfl]
    simp [entriesIn, KeyPath.join, pages, known]
  have books : entriesFrom "books" false shelfBooks = before ++ [lender] := by
    rw [entriesFrom_element rfl rfl]
    exact congrArg (List.cons _) book
  have note : entriesFrom "note" false .null = [⟨"note", false, .null⟩] :=
    entriesFrom_leaf rfl rfl
  have entries : shelfDefinition.entries = before ++ lender :: [⟨"note", false, .null⟩] := by
    simp [shelfDefinition, Value.entries, Loader.definedFields?, Entries.get?, Entry.members?,
      entriesIn, KeyPath.join, books, note]
  have noArray : ∀ one ∈ shelfDefinition.entries, ∀ items, one.value ≠ .array items := by
    simp [entries, before, lender, shelfBooks, shelfBook, shelfPages, shelfLender]
  have sound : ∀ earlier ∈ before, ¬ earlier.Faulty loader := by
    intro earlier listed
    rw [← PlacedEntry.accepted_iff_not_faulty (noArray earlier (by simp [entries, listed]))]
    simp only [before, List.mem_cons, List.not_mem_nil, or_false] at listed
    rcases listed with rfl | rfl | rfl
    all_goals
      refine ⟨_, rfl, ⟨rfl, by decide, ?_, ?_, ?_, ?_⟩⟩
      all_goals simp [Entries.get?, Entry.present?, Entry.members?, shelfBook]
  have faulty : lender.Faulty loader :=
    .members rfl (.unknownResolver rfl rfl rfl)
  obtain ⟨accepts, -, first⟩ := load_grammar loader shelfDefinition noArray
  have refused : ¬ ∃ schema, loader.load shelfDefinition = .ok schema := by
    intro loaded
    exact (accepts.mp loaded).2 lender (by simp [entries]) faulty
  exact ⟨noArray, entries, sound, faulty, refused, first _ _ _ entries sound faulty⟩

/-- An entry may be written as an object, or as an array of the values of its five
members, which loads as the object of these members does. A definition with an
entry of any other form is refused. -/
theorem load_written_entries (loader : Loader ρ) (definition : Value) :
    ((∃ schema, loader.load definition = .ok schema) ↔
      (∃ members fields, definition = .object members ∧
        Entries.get? "fields" members = some (.object fields)) ∧
      ∀ one ∈ definition.entries, ∃ members, Entry.written? one.value = some members ∧
        ¬ Entry.Misdeclared loader one.inArray members) ∧
    (∀ one ∈ definition.entries, (∀ members, one.value ≠ .object members) →
      (∀ items, one.value = .array items → items.length ≠ 5) →
      ∃ path fault, loader.load definition = .error (.malformed path fault)) ∧
    (∀ items : List Value, items.length = 5 → ∀ path,
      loader.loadField path (.array items) =
        loader.loadField path (.object (Entry.memberNames.zip items)) ∧
      loader.loadElement path (.array items) =
        loader.loadElement path (.object (Entry.memberNames.zip items))) := by
  refine ⟨?accepts, ?refuses, ?alike⟩
  case accepts =>
    rw [Loader.exists_ok_iff]
    exact and_congr_right fun _ => forall₂_congr fun _ _ => PlacedEntry.accepted_iff
  case refuses =>
    intro one listed noObject noItems
    cases result : loader.load definition with
    | error error =>
        obtain ⟨path, fault, rfl⟩ := Loader.malformed_of_load result
        exact ⟨path, fault, rfl⟩
    | ok schema =>
        have sound := ((Loader.exists_ok_iff loader definition).mp ⟨schema, result⟩).2 one listed
        obtain ⟨members, written, -⟩ := PlacedEntry.accepted_iff.mp sound
        cases form : one.value with
        | object held => exact absurd form (noObject held)
        | array items =>
            have short : items.length ≠ Entry.memberNames.length := noItems items form
            simp [form, Entry.written?, short] at written
        | null | bool | number | string =>
            rw [form] at written
            cases written
  case alike =>
    intro items full path
    have same : Entry.read path (.array items) =
        Entry.read path (.object (Entry.memberNames.zip items)) := by
      unfold Entry.read
      simp only [Entry.ofValue, Entry.ofItems_of_length full]
    constructor
    · rw [Loader.loadField_eq, Loader.loadField_eq, same]
    · rw [Loader.loadElement_eq, Loader.loadElement_eq, same]

def briefDefinition : Value :=
  .object [("fields", .object [("a", .array [.string "string", .null, .null, .null, .null])])]

/-- The entry of this definition is no object, and yet it loads. -/
theorem load_brief :
    (∃ one ∈ briefDefinition.entries, ∀ members, one.value ≠ .object members) ∧
      (Loader.empty : Loader (Resolver Unit)).load briefDefinition =
        .ok ⟨[("a", .string)]⟩ := by
  have entries : briefDefinition.entries =
      [⟨"a", false, .array [.string "string", .null, .null, .null, .null]⟩] := by
    have leaf : entriesFrom "a" false (.array [.string "string", .null, .null, .null, .null]) =
        [⟨"a", false, .array [.string "string", .null, .null, .null, .null]⟩] :=
      entriesFrom_leaf rfl rfl
    simp [briefDefinition, Value.entries, Loader.definedFields?, Entries.get?, Entry.members?,
      entriesIn, KeyPath.join, leaf]
  have read : Entry.read "a" (.array [.string "string", .null, .null, .null, .null]) =
      .ok ⟨"string", none, none, none, none⟩ := rfl
  refine ⟨⟨_, by rw [entries]; exact List.mem_cons_self, by simp⟩, ?_⟩
  simp [briefDefinition, Loader.load, Loader.definedFields?, Entries.get?, Entry.members?,
    Loader.loadFields, KeyPath.join, Loader.loadField_eq, read, Loader.loadItem, bind,
    Except.bind, pure, Except.pure]
  rfl

end DocShape
