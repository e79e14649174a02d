import Mathlib.Algebra.BigOperators.Group.List.Basic
import Mathlib.Algebra.Group.Nat.Defs
import DocShape.Proofs.Lines
import DocShape.Proofs.PathText

/-! A listing as a text. It is a table with one row for each declared field and each array
element, unless a declared name holds a tab or a line break: names are written as they
are, and such a one breaks its row. -/

set_option autoImplicit false

namespace DocShape

variable {ρ : Type}

/-! ## Lines and columns -/

namespace Text

def split (separator : Char) (text : String) : List String :=
  (text.toList.splitOn separator).map String.ofList

/-- A line break ends a line. What follows the last one is a further line unless it is empty. -/
def lines (text : String) : List String :=
  let pieces := split '\n' text
  if pieces.getLast? = some "" then pieces.dropLast else pieces

def columns (line : String) : List String :=
  split '\t' line

/-- What sets the columns and the lines of a table apart. -/
def separators : List Char := ['\t', '\n']

/-- The text whose lines are the given ones, if these are unbroken. -/
def written (rows : List String) : String :=
  String.join (rows.map fun row => row ++ "\n")

variable {separator : Char} {text left right : String}

private theorem length_split (separator : Char) (text : String) :
    (split separator text).length = text.toList.count separator + 1 := by
  rw [split, List.length_map]
  induction text.toList with
  | nil => simp
  | cons char rest ih =>
      rw [List.splitOn_cons_eq_if_modifyHead, List.count_cons]
      split <;> simp [ih]

private theorem split_of_not_mem (free : separator ∉ text.toList) :
    split separator text = [text] := by
  simp [split, List.splitOn_eq_singleton free]

private theorem split_of_toList (joined : text.toList = left.toList ++ separator :: right.toList) :
    split separator text = split separator left ++ split separator right := by
  rw [split, joined, List.splitOn_append_cons_of_beq _ _ (beq_self_eq_true separator),
    List.map_append]
  rfl

private theorem split_written (rows : List String) :
    split '\n' (written rows) = rows.flatMap (split '\n') ++ [""] := by
  induction rows with
  | nil => simp [split, written]
  | cons row rest ih =>
      have joined : (written (row :: rest)).toList =
          row.toList ++ '\n' :: (written rest).toList := by
        simp [written, String.toList_join]
      rw [split_of_toList joined, ih, List.flatMap_cons, List.append_assoc]

private theorem lines_written (rows : List String) :
    lines (written rows) = rows.flatMap (split '\n') := by
  simp [lines, split_written]

private theorem lines_written_of_unbroken {rows : List String}
    (unbroken : ∀ row ∈ rows, Unbroken row) :
    lines (written rows) = rows := by
  rw [lines_written]
  induction rows with
  | nil => rfl
  | cons row rest ih =>
      obtain ⟨here, later⟩ := List.forall_mem_cons.mp unbroken
      rw [List.flatMap_cons, split_of_not_mem here, ih later]
      rfl

/-- Broken rows make more lines. -/
theorem unbroken_of_length_lines {rows : List String}
    (count : (lines (written rows)).length = rows.length) : ∀ row ∈ rows, Unbroken row := by
  have breaks : (rows.map fun row => row.toList.count '\n').sum = 0 := by
    simpa [lines_written, List.length_flatMap, length_split, List.sum_map_add] using count
  intro row listed
  apply List.count_eq_zero.mp
  exact List.sum_eq_zero_iff_forall_eq_nat.mp breaks _ (List.mem_map_of_mem listed)

private theorem avoids_append {chars : List Char} :
    Avoids chars (left ++ right) ↔ Avoids chars left ∧ Avoids chars right := by
  simp [Avoids, or_imp, forall_and]

private theorem avoids_separators_iff :
    Avoids separators text ↔ '\t' ∉ text.toList ∧ Unbroken text := by
  constructor
  · intro avoids
    exact ⟨fun listed => avoids _ listed (by decide), fun listed => avoids _ listed (by decide)⟩
  · rintro ⟨noTab, unbroken⟩ char listed separates
    rcases List.mem_pair.mp separates with rfl | rfl
    · exact noTab listed
    · exact unbroken listed

end Text

namespace Declaration

def presence (declaration : Declaration) : String :=
  if declaration.optional then "optional" else "required"

/-- The columns of the row that lists the declaration. -/
def columns (declaration : Declaration) : List String :=
  [declaration.path, declaration.kind, declaration.presence]

private theorem avoids_presence (declaration : Declaration) :
    Text.Avoids Text.separators declaration.presence := by
  rw [presence]
  split <;> decide

variable {declaration : Declaration} {declarations : List Declaration}

private theorem toList_line (declaration : Declaration) :
    declaration.line.toList = declaration.path.toList ++ '\t' ::
      (declaration.kind.toList ++ '\t' :: declaration.presence.toList) := by
  simp [line, presence]

private theorem unbroken_line_iff (kind : Text.Avoids Text.separators declaration.kind) :
    Text.Unbroken declaration.line ↔ Text.Unbroken declaration.path := by
  have presence := (Text.avoids_separators_iff.mp declaration.avoids_presence).2
  have kind := (Text.avoids_separators_iff.mp kind).2
  simp_all [Text.Unbroken, toList_line]

private theorem length_columns_line_iff (kind : Text.Avoids Text.separators declaration.kind) :
    (Text.columns declaration.line).length = 3 ↔ '\t' ∉ declaration.path.toList := by
  have presence :=
    List.count_eq_zero.mpr (Text.avoids_separators_iff.mp declaration.avoids_presence).1
  have kind := List.count_eq_zero.mpr (Text.avoids_separators_iff.mp kind).1
  rw [← List.count_eq_zero]
  simp [Text.columns, Text.length_split, toList_line, kind, presence]

private theorem columns_line (kind : Text.Avoids Text.separators declaration.kind)
    (path : Text.Avoids Text.separators declaration.path) :
    Text.columns declaration.line = declaration.columns := by
  have presence := (Text.avoids_separators_iff.mp declaration.avoids_presence).1
  have kind := (Text.avoids_separators_iff.mp kind).1
  have path := (Text.avoids_separators_iff.mp path).1
  have joined : declaration.line.toList =
      List.intercalate ['\t'] (declaration.columns.map String.toList) := by
    simp [toList_line, columns, List.intercalate]
  have free : ∀ column ∈ declaration.columns.map String.toList, '\t' ∉ column := by
    simp [columns, path, kind, presence]
  rw [Text.columns, Text.split, joined, List.splitOn_intercalate '\t' free (by simp [columns])]
  simp [Function.comp_def]

/-- The text of a listing. -/
def listing (declarations : List Declaration) : String :=
  Text.written (declarations.map line)

private theorem lines_listing (kinds : ∀ row ∈ declarations, Text.Avoids Text.separators row.kind)
    (paths : ∀ row ∈ declarations, Text.Avoids Text.separators row.path) :
    Text.lines (listing declarations) = declarations.map line := by
  apply Text.lines_written_of_unbroken
  intro text listed
  obtain ⟨row, member, rfl⟩ := List.mem_map.mp listed
  exact (unbroken_line_iff (kinds row member)).mpr
    (Text.avoids_separators_iff.mp (paths row member)).2

theorem columns_listing (kinds : ∀ row ∈ declarations, Text.Avoids Text.separators row.kind)
    (paths : ∀ row ∈ declarations, Text.Avoids Text.separators row.path) :
    (Text.lines (listing declarations)).map Text.columns = declarations.map columns := by
  rw [lines_listing kinds paths, List.map_map, List.map_inj_left]
  intro row member
  exact columns_line (kinds row member) (paths row member)

/-- A listing is a table of one row for each declaration where no path holds a tab or a
line break, and nowhere else. -/
theorem isTable_listing_iff
    (kinds : ∀ row ∈ declarations, Text.Avoids Text.separators row.kind) :
    ((Text.lines (listing declarations)).length = declarations.length ∧
        ∀ row ∈ Text.lines (listing declarations), (Text.columns row).length = 3) ↔
      ∀ row ∈ declarations, Text.Avoids Text.separators row.path := by
  constructor
  · rintro ⟨count, three⟩ row member
    have listed : row.line ∈ declarations.map line := List.mem_map_of_mem member
    have unbroken : ∀ text ∈ declarations.map line, Text.Unbroken text :=
      Text.unbroken_of_length_lines (by simpa [listing] using count)
    rw [listing, Text.lines_written_of_unbroken unbroken] at three
    exact Text.avoids_separators_iff.mpr
      ⟨(length_columns_line_iff (kinds row member)).mp (three _ listed),
        (unbroken_line_iff (kinds row member)).mp (unbroken _ listed)⟩
  · intro paths
    rw [lines_listing kinds paths]
    refine ⟨List.length_map _, ?_⟩
    intro text listed
    obtain ⟨row, member, rfl⟩ := List.mem_map.mp listed
    rw [columns_line (kinds row member) (paths row member)]
    rfl

end Declaration

/-! ## The rows of a schema -/

mutual

def ItemKind.arrays : ItemKind ρ → Nat
  | .scalar _ => 0
  | .object schema => schema.arrays
  | .custom _ => 0

def FieldKind.arrays : FieldKind ρ → Nat
  | .item kind => kind.arrays
  | .array element => element.arrays + 1

/-- The number of the array fields at any depth. -/
def Schema.arrays : Schema ρ → Nat
  | ⟨fields⟩ => arraysIn fields

def arraysIn : List (String × Field ρ) → Nat
  | [] => 0
  | (_, ⟨kind, _⟩) :: rest => kind.arrays + arraysIn rest

end

mutual

private theorem ItemKind.length_sites : (kind : ItemKind ρ) →
    kind.sites.length = kind.names.length + kind.arrays
  | .scalar _ => rfl
  | .object ⟨fields⟩ => length_sitesOf fields
  | .custom _ => rfl

private theorem FieldKind.length_sites : (kind : FieldKind ρ) →
    kind.sites.length = kind.names.length + kind.arrays
  | .item kind => ItemKind.length_sites kind
  | .array element => by
      simp [FieldKind.sites, FieldKind.names, FieldKind.arrays, ItemKind.length_sites element,
        Nat.add_assoc]

private theorem length_sitesOf : (fields : List (String × Field ρ)) →
    (sitesOf fields).length = (namesIn fields).length + arraysIn fields
  | [] => rfl
  | (_, ⟨kind, _⟩) :: rest => by
      simp only [sitesOf, namesIn, arraysIn, List.length_append, List.length_map,
        List.length_cons, FieldKind.length_sites kind, length_sitesOf rest]
      omega

end

theorem Site.exists_below_iff {name kind : String} {optional : Bool} {marker : Marker}
    {sites : List Site} :
    (∃ site ∈ (Site.here kind optional :: sites).map (Site.below marker),
        .member name ∈ site.markers) ↔
      .member name = marker ∨ ∃ site ∈ sites, .member name ∈ site.markers := by
  constructor
  · rintro ⟨_, listed, onWay⟩
    obtain ⟨site, member, rfl⟩ := List.mem_map.mp listed
    rcases List.mem_cons.mp onWay with first | deeper
    · exact .inl first
    · rcases List.mem_cons.mp member with rfl | inside
      · cases deeper
      · exact .inr ⟨site, inside, deeper⟩
  · rintro (rfl | ⟨site, inside, onWay⟩)
    · exact ⟨_, List.mem_map_of_mem List.mem_cons_self, List.mem_cons_self⟩
    · exact ⟨_, List.mem_map_of_mem (List.mem_cons_of_mem _ inside), List.mem_cons_of_mem _ onWay⟩

mutual

theorem ItemKind.mem_names_iff {name : String} : (kind : ItemKind ρ) →
    (name ∈ kind.names ↔ ∃ site ∈ kind.sites, .member name ∈ site.markers)
  | .scalar _ => by simp [ItemKind.names, ItemKind.sites]
  | .object ⟨fields⟩ => mem_namesIn_iff_sites fields
  | .custom _ => by simp [ItemKind.names, ItemKind.sites]

theorem FieldKind.mem_names_iff {name : String} : (kind : FieldKind ρ) →
    (name ∈ kind.names ↔ ∃ site ∈ kind.sites, .member name ∈ site.markers)
  | .item kind => ItemKind.mem_names_iff kind
  | .array element => by
      rw [FieldKind.sites, Site.exists_below_iff, FieldKind.names, ItemKind.mem_names_iff element]
      simp

private theorem mem_namesIn_iff_sites {name : String} : (fields : List (String × Field ρ)) →
    (name ∈ namesIn fields ↔ ∃ site ∈ sitesOf fields, .member name ∈ site.markers)
  | [] => by simp [namesIn, sitesOf]
  | (key, ⟨kind, optional⟩) :: rest => by
      have here := @Site.exists_below_iff name kind.name optional (.member key) kind.sites
      simp only [List.mem_append, or_and_right, exists_or, sitesOf, here]
      simp [namesIn, FieldKind.mem_names_iff kind, mem_namesIn_iff_sites rest, or_assoc]

end

/-- The names of a schema are those on the way to its places. -/
theorem Schema.mem_names_iff {schema : Schema ρ} {name : String} :
    name ∈ schema.names ↔ ∃ site ∈ schema.sites, .member name ∈ site.markers := by
  obtain ⟨fields⟩ := schema
  exact mem_namesIn_iff_sites fields

private theorem ItemKind.avoids_name (kind : ItemKind ρ) :
    Text.Avoids Text.separators kind.name := by
  cases kind with
  | scalar kind =>
      rw [ItemKind.name]
      cases kind <;> decide
  | object | custom =>
      rw [ItemKind.name]
      decide

private theorem FieldKind.avoids_name (kind : FieldKind ρ) :
    Text.Avoids Text.separators kind.name := by
  cases kind with
  | item kind => exact kind.avoids_name
  | array element =>
      rw [FieldKind.name]
      decide

mutual

private theorem ItemKind.avoids_sites : (kind : ItemKind ρ) →
    ∀ site ∈ kind.sites, Text.Avoids Text.separators site.kind
  | .scalar _ => by simp [ItemKind.sites]
  | .object ⟨fields⟩ => avoids_sitesOf fields
  | .custom _ => by simp [ItemKind.sites]

private theorem FieldKind.avoids_sites : (kind : FieldKind ρ) →
    ∀ site ∈ kind.sites, Text.Avoids Text.separators site.kind
  | .item kind => ItemKind.avoids_sites kind
  | .array element => by
      rw [FieldKind.sites, List.forall_mem_map]
      exact List.forall_mem_cons.mpr ⟨element.avoids_name, ItemKind.avoids_sites element⟩

private theorem avoids_sitesOf : (fields : List (String × Field ρ)) →
    ∀ site ∈ sitesOf fields, Text.Avoids Text.separators site.kind
  | [] => by simp [sitesOf]
  | (_, ⟨kind, _⟩) :: rest => by
      rw [sitesOf, List.forall_mem_append, List.forall_mem_map]
      exact ⟨List.forall_mem_cons.mpr ⟨kind.avoids_name, FieldKind.avoids_sites kind⟩,
        avoids_sitesOf rest⟩

end

namespace KeyPath

variable {chars : List Char}

private theorem avoids_join (noDot : '.' ∉ chars) (path name : String) :
    Text.Avoids chars (join path name) ↔ Text.Avoids chars path ∧ Text.Avoids chars name := by
  have dot : Text.Avoids chars "." := by simpa [Text.Avoids] using noDot
  by_cases empty : path = ""
  · subst empty
    simp [join, Text.Avoids]
  · simp [join_of_ne_empty empty, Text.avoids_append, dot]

private theorem avoids_anyItem (noBracket : '[' ∉ chars ∧ ']' ∉ chars) (path : String) :
    Text.Avoids chars (anyItem path) ↔ Text.Avoids chars path := by
  have brackets : Text.Avoids chars "[]" := by simpa [Text.Avoids] using noBracket
  simp [anyItem, Text.avoids_append, brackets]

theorem not_mem_separators : ∀ char ∈ marks, char ∉ Text.separators := by
  simp [marks, Text.separators]

/-- What is no mark stands in a path where it stands in a name. -/
theorem avoids_foldl_mark (noMark : ∀ char ∈ marks, char ∉ chars) (path : String)
    (markers : List Marker) :
    Text.Avoids chars (markers.foldl mark path) ↔
      Text.Avoids chars path ∧ ∀ name, .member name ∈ markers → Text.Avoids chars name := by
  induction markers generalizing path with
  | nil => simp
  | cons marker rest ih =>
      have noDot := noMark '.' (by decide)
      have noBracket := And.intro (noMark '[' (by decide)) (noMark ']' (by decide))
      rw [List.foldl_cons, ih]
      cases marker with
      | member key =>
          simp [mark, avoids_join noDot, or_imp, forall_and, and_assoc]
      | items => simp [mark, avoids_anyItem noBracket]

end KeyPath

theorem Schema.avoids_paths_iff (schema : Schema ρ) {chars : List Char}
    (noMark : ∀ char ∈ KeyPath.marks, char ∉ chars) :
    (∀ declaration ∈ schema.declarations, Text.Avoids chars declaration.path) ↔
      ∀ name ∈ schema.names, Text.Avoids chars name := by
  have empty : Text.Avoids chars "" := by simp [Text.Avoids]
  simp only [schema.declarations_eq, List.forall_mem_map, Site.declaration,
    KeyPath.avoids_foldl_mark noMark, empty, true_and, Schema.mem_names_iff]
  exact ⟨fun each name ⟨site, member, onWay⟩ => each site member name onWay,
    fun each site member name onWay => each name ⟨site, member, onWay⟩⟩

theorem Schema.avoids_kinds (schema : Schema ρ) :
    ∀ declaration ∈ schema.declarations, Text.Avoids Text.separators declaration.kind := by
  rw [schema.declarations_eq, List.forall_mem_map]
  exact avoids_sitesOf schema.fields

theorem Schema.length_declarations (schema : Schema ρ) :
    schema.declarations.length = schema.names.length + schema.arrays := by
  obtain ⟨fields⟩ := schema
  rw [Schema.declarations_eq, List.length_map]
  exact length_sitesOf fields

end DocShape
