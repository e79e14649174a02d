import DocShape.Proofs.CheckCommand
import DocShape.Proofs.ListedSchema

/-! What the command that inspects a schema writes, from the text of a definition to the
text of the listing. -/

set_option autoImplicit false

namespace DocShape.Command

/-! ## One row for each declaration -/

theorem inspect_of_loaded {contents : Except FileFault String} {schema : Schema (Resolver Unit)}
    (loaded : schemaOfFile contents = .ok schema) :
    inspect contents = { output := Declaration.listing schema.declarations, failure := none } := by
  simp only [inspect, loaded, Declaration.listing, Text.written, List.map_map]
  rfl

theorem columns_output {contents : Except FileFault String} {schema : Schema (Resolver Unit)}
    (loaded : schemaOfFile contents = .ok schema)
    (clean : ∀ name ∈ schema.names, Text.Avoids Text.separators name) :
    (Text.lines (inspect contents).output).map Text.columns =
      schema.declarations.map Declaration.columns := by
  rw [inspect_of_loaded loaded]
  exact Declaration.columns_listing schema.avoids_kinds
    ((schema.avoids_paths_iff KeyPath.not_mem_separators).mpr clean)

/-- An inspection lists the declared places depth first, in order of declaration: each
field, and behind an array field its element. The text is a table with one row for each
of them if no declared name holds a tab or a line break, and only then. -/
theorem inspect_lines {contents : Except FileFault String} {schema : Schema (Resolver Unit)}
    (loaded : schemaOfFile contents = .ok schema) :
    (inspect contents).failure = none ∧
    (inspect contents).output =
      Declaration.listing (schema.sites.map (Site.declaration "")) ∧
    schema.sites.length = schema.names.length + schema.arrays ∧
    ((∀ name ∈ schema.names, Text.Avoids Text.separators name) →
      (Text.lines (inspect contents).output).map Text.columns =
        schema.sites.map fun site => [site.markers.foldl KeyPath.mark "", site.kind,
          if site.optional then "optional" else "required"]) ∧
    (((Text.lines (inspect contents).output).length = schema.names.length + schema.arrays ∧
        ∀ line ∈ Text.lines (inspect contents).output, (Text.columns line).length = 3) ↔
      ∀ name ∈ schema.names, Text.Avoids Text.separators name) := by
  have output := inspect_of_loaded loaded
  refine ⟨?failure, ?text, ?count, ?rows, ?table⟩
  case failure => rw [output]
  case text => rw [output, schema.declarations_eq]
  case count => rw [← schema.length_declarations, schema.declarations_eq, List.length_map]
  case rows =>
    intro clean
    rw [columns_output loaded clean, schema.declarations_eq, List.map_map]
    rfl
  case table =>
    rw [output, ← schema.length_declarations,
      ← schema.avoids_paths_iff KeyPath.not_mem_separators]
    exact Declaration.isTable_listing_iff schema.avoids_kinds

private theorem schemaOfFile_of_read {text : String} {definition : Json.Value}
    {schema : Schema (Resolver Unit)} (read : Json.Value.read text = .ok definition)
    (loaded : Loader.empty.load definition = .ok schema) :
    schemaOfFile (.ok text) = .ok schema := by
  simp only [schemaOfFile, Loader.loadFile, Loader.loadText, read, loaded]

def libraryText : String :=
  "\x7b\"fields\":\x7b\"books\":\x7b\"type\":\"array\",\"element\":\x7b\"type\":\"object\"," ++
    "\"fields\":\x7b\"new\":\x7b\"type\":\"bool\",\"optional\":true\x7d\x7d\x7d\x7d\x7d\x7d"

def libraryDefinition : Json.Value :=
  .object [("fields", .object [("books", .object [("type", .string "array"),
    ("element", .object [("type", .string "object"), ("fields", .object [("new",
      .object [("type", .string "bool"), ("optional", .bool true)])])])])])]

def librarySchema : Schema (Resolver Unit) :=
  ⟨[("books", .array (.object ⟨[("new", .withOptional true .bool)]⟩))]⟩

private theorem loaded_libraryText : schemaOfFile (.ok libraryText) = .ok librarySchema := by
  have read : Json.Value.read libraryText = .ok libraryDefinition := by cbv
  exact schemaOfFile_of_read read (by with_unfolding_all rfl)

theorem inspect_lines_library :
    schemaOfFile (.ok libraryText) = .ok librarySchema ∧
      (∀ name ∈ librarySchema.names, Text.Avoids Text.separators name) ∧
      (Text.lines (inspect (.ok libraryText)).output).map Text.columns =
        [["books", "array", "required"], ["books[]", "object", "required"],
          ["books[].new", "bool", "optional"]] ∧
      (Text.lines (inspect (.ok libraryText)).output).length = 3 := by
  have clean : ∀ name ∈ librarySchema.names, Text.Avoids Text.separators name := by decide
  obtain ⟨-, -, -, rows, table⟩ := inspect_lines loaded_libraryText
  exact ⟨loaded_libraryText, clean, rows clean, (table.mpr clean).1⟩

def brokenNameDefinition : Json.Value :=
  .object [("fields", .object [("a\nb", .object [("type", .string "string")])])]

/-- One field, but two lines, the first of which has one column only. -/
theorem inspect_brokenName :
    let contents : Except FileFault String :=
      .ok "\x7b\"fields\":\x7b\"a\\nb\":\x7b\"type\":\"string\"\x7d\x7d\x7d"
    let schema : Schema (Resolver Unit) := ⟨[("a\nb", .string)]⟩
    schemaOfFile contents = .ok schema ∧
      schema.names.length + schema.arrays = 1 ∧
      (inspect contents).output = "a\nb\tstring\trequired\n" ∧
      (Text.lines (inspect contents).output).map Text.columns =
        [["a"], ["b", "string", "required"]] ∧
      (Text.lines (inspect contents).output).length ≠ schema.names.length + schema.arrays := by
  intro contents schema
  have read :
      Json.Value.read "\x7b\"fields\":\x7b\"a\\nb\":\x7b\"type\":\"string\"\x7d\x7d\x7d" =
        .ok brokenNameDefinition := by cbv
  have loaded : schemaOfFile contents = .ok schema :=
    schemaOfFile_of_read read (by with_unfolding_all rfl)
  have output : (inspect contents).output = "a\nb\tstring\trequired\n" := by
    rw [inspect_of_loaded loaded]
    rfl
  rw [output]
  exact ⟨loaded, rfl, rfl, rfl, by decide⟩

/-! ## The listed schema -/

theorem resolvers_eq_nil_of_loaded {contents : Except FileFault String}
    {schema : Schema (Resolver Unit)} (loaded : schemaOfFile contents = .ok schema) :
    schema.resolvers = [] := by
  obtain ⟨definition, loaded⟩ := schemaOfFile_ok loaded
  exact Loader.resolvers_eq_nil_of_load loaded rfl

/-- Two definitions that are listed alike declare the same schema, with the same names in
the same order, kinds, elements and optionality at every level, if no name is empty or
holds a dot, a bracket, a tab or a line break. -/
theorem schema_eq_of_inspect {contents otherContents : Except FileFault String}
    {schema other : Schema (Resolver Unit)} (loaded : schemaOfFile contents = .ok schema)
    (otherLoaded : schemaOfFile otherContents = .ok other)
    (names : ∀ name ∈ schema.names,
      KeyPath.PlainName name ∧ Text.Avoids Text.separators name)
    (otherNames : ∀ name ∈ other.names,
      KeyPath.PlainName name ∧ Text.Avoids Text.separators name)
    (same : (inspect contents).output = (inspect otherContents).output) : schema = other := by
  have columns : schema.declarations.map Declaration.columns =
      other.declarations.map Declaration.columns := by
    rw [← columns_output loaded fun name listed => (names name listed).2, same,
      columns_output otherLoaded fun name listed => (otherNames name listed).2]
  have declarations := List.map_injective_iff.mpr Declaration.columns_injective columns
  rw [schema.declarations_eq, other.declarations_eq] at declarations
  have sites := sites_eq_of_declarations
    (Schema.plainMarkers fun name listed => (names name listed).1)
    (Schema.plainMarkers fun name listed => (otherNames name listed).1) declarations
  exact Schema.eq_of_sites (resolvers_eq_nil_of_loaded loaded)
    (resolvers_eq_nil_of_loaded otherLoaded) sites

/-- The same library, with another name for the type of a field and members in another order. -/
def otherLibraryText : String :=
  "\x7b\"fields\":\x7b\"books\":\x7b\"element\":\x7b\"fields\":\x7b\"new\":" ++
    "\x7b\"optional\":true,\"type\":\"boolean\"\x7d\x7d,\"type\":\"object\"\x7d," ++
    "\"type\":\"array\"\x7d\x7d\x7d"

def otherLibraryDefinition : Json.Value :=
  .object [("fields", .object [("books", .object [
    ("element", .object [("fields", .object [("new",
      .object [("optional", .bool true), ("type", .string "boolean")])]),
      ("type", .string "object")]), ("type", .string "array")])])]

def otherLibrarySchema : Schema (Resolver Unit) :=
  Schema.empty.insert "books"
    (.array (.object (Schema.empty.insert "new" (.withOptional true .bool))))

private theorem loaded_otherLibraryText :
    schemaOfFile (.ok otherLibraryText) = .ok otherLibrarySchema := by
  have read : Json.Value.read otherLibraryText = .ok otherLibraryDefinition := by cbv
  exact schemaOfFile_of_read read (by with_unfolding_all rfl)

theorem schema_eq_of_inspect_library :
    libraryText ≠ otherLibraryText ∧
      schemaOfFile (.ok libraryText) = .ok librarySchema ∧
      schemaOfFile (.ok otherLibraryText) = .ok otherLibrarySchema ∧
      (inspect (.ok libraryText)).output = (inspect (.ok otherLibraryText)).output ∧
      librarySchema = otherLibrarySchema := by
  have same : (inspect (.ok libraryText)).output = (inspect (.ok otherLibraryText)).output := by
    rw [inspect_of_loaded loaded_libraryText, inspect_of_loaded loaded_otherLibraryText]
    rfl
  have equal : librarySchema = otherLibrarySchema :=
    schema_eq_of_inspect loaded_libraryText loaded_otherLibraryText (by decide) (by decide) same
  exact ⟨by decide +kernel, loaded_libraryText, loaded_otherLibraryText, same, equal⟩

end DocShape.Command
