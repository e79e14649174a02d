import DocShape.Proofs.Equivalence
import DocShape.Proofs.Resolvers
import DocShape.Proofs.Sites

/-! Documents made from a schema: one that conforms, and for each listed place one
whose first fault is a value of the wrong kind there. What a listing says of a
schema without resolvers is therefore exactly what its validations can report. -/

set_option autoImplicit false

namespace DocShape

open Json (Value)

variable {σ ρ : Type}

/-! ## A value of every kind -/

def Scalar.sample : Scalar → Value
  | .string => .string ""
  | .number => .number (.integer 0)
  | .bool => .bool false

mutual

/-- A value of the kind. There is none to be known of a custom kind. -/
def ItemKind.sample : ItemKind ρ → Value
  | .scalar kind => kind.sample
  | .object ⟨declared⟩ => .object (sampleFields declared)
  | .custom _ => .null

def FieldKind.sample : FieldKind ρ → Value
  | .item kind => kind.sample
  | .array _ => .array []

def sampleFields : List (String × Field ρ) → List (String × Value)
  | [] => []
  | (name, ⟨kind, _⟩) :: rest => (name, kind.sample) :: sampleFields rest

end

private theorem names_sampleFields (declared : List (String × Field ρ)) :
    Entries.names (sampleFields declared) = Entries.names declared := by
  induction declared with
  | nil => rfl
  | cons head rest ih =>
      obtain ⟨name, ⟨kind, optional⟩⟩ := head
      rw [sampleFields, Entries.names_cons, Entries.names_cons, ih]

private theorem mem_sampleFields {declared : List (String × Field ρ)} {name : String}
    {field : Field ρ}
    (listed : (name, field) ∈ declared) : (name, field.kind.sample) ∈ sampleFields declared := by
  induction declared with
  | nil => simp at listed
  | cons head rest ih =>
      obtain ⟨key, ⟨kind, optional⟩⟩ := head
      rw [sampleFields]
      rcases List.mem_cons.mp listed with same | later
      · cases same
        exact List.mem_cons_self
      · exact List.mem_cons_of_mem _ (ih later)

private theorem get?_sampleFields {declared : List (String × Field ρ)} {name : String}
    {field : Field ρ}
    (distinct : (Entries.names declared).Nodup) (listed : (name, field) ∈ declared) :
    Entries.get? name (sampleFields declared) = some field.kind.sample := by
  rw [← names_sampleFields] at distinct
  exact Entries.get?_of_mem distinct (mem_sampleFields listed)

mutual

private theorem ItemKind.uniqueNames_sample : (kind : ItemKind ρ) → kind.UniqueNames →
    kind.sample.UniqueNames
  | .scalar kind, _ => by cases kind <;> trivial
  | .object ⟨declared⟩, unique => by
      rw [ItemKind.sample]
      exact ⟨names_sampleFields declared ▸ unique.1, uniqueNames_sampleFields declared unique.2⟩
  | .custom _, _ => trivial

private theorem FieldKind.uniqueNames_sample : (kind : FieldKind ρ) → kind.UniqueNames →
    kind.sample.UniqueNames
  | .item kind, unique => ItemKind.uniqueNames_sample kind unique
  | .array _, _ => trivial

private theorem uniqueNames_sampleFields : (declared : List (String × Field ρ)) →
    UniqueNamesIn declared → Value.UniqueNamesMembers (sampleFields declared)
  | [], _ => trivial
  | (_, ⟨kind, _⟩) :: rest, unique =>
      ⟨FieldKind.uniqueNames_sample kind unique.1, uniqueNames_sampleFields rest unique.2⟩

end

namespace Plan

/-- A member that is there and sound adds no step. -/
theorem fields_eq_nil {strict : Bool} {declared : List (String × Field ρ)}
    {members : List (String × Value)}
    (sound : ∀ name field, (name, field) ∈ declared → ∃ value,
      Entries.get? name members = some value ∧ value ≠ .null ∧
        Plan.field strict field.kind value = []) :
    fields strict declared members = [] := by
  induction declared with
  | nil => rw [fields]
  | cons head rest ih =>
      obtain ⟨name, ⟨kind, optional⟩⟩ := head
      obtain ⟨value, found, held, nothing⟩ := sound name ⟨kind, optional⟩ List.mem_cons_self
      have others := ih fun key field listed => sound key field (List.mem_cons_of_mem _ listed)
      rw [fields, found, present_some held, nothing, others]
      rfl

private theorem undeclared_eq_nil {declared : List (String × Field ρ)}
    {members : List (String × Value)}
    (known : Entries.names members ⊆ Entries.names declared) :
    (undeclared declared members : List (Step ρ)) = [] := by
  rw [undeclared, List.map_eq_nil_iff, List.filter_eq_nil_iff]
  intro name listed
  simp [Entries.contains_iff.mpr (known listed)]

private theorem object_eq_fields {strict : Bool} {declared : List (String × Field ρ)}
    {members : List (String × Value)}
    (known : Entries.names members ⊆ Entries.names declared) :
    object strict ⟨declared⟩ members = fields strict declared members := by
  rw [object, undeclared_eq_nil known]
  cases strict <;> rfl

mutual

private theorem item_sample (strict : Bool) : (kind : ItemKind ρ) → kind.UniqueNames →
    kind.resolvers = [] → kind.sample ≠ .null ∧ item strict kind kind.sample = []
  | .scalar kind, _, _ => by
      cases kind <;> simp [ItemKind.sample, Scalar.sample, item, Scalar.admits]
  | .object ⟨declared⟩, unique, noResolver => by
      have each := fields_sample strict declared unique.2 noResolver
      refine ⟨by simp [ItemKind.sample], ?_⟩
      rw [ItemKind.sample, item,
        object_eq_fields (names_sampleFields declared ▸ List.Subset.refl _)]
      apply fields_eq_nil
      intro name field listed
      exact ⟨_, get?_sampleFields unique.1 listed, each (name, field) listed⟩
  | .custom _, _, noResolver => by simp [ItemKind.resolvers] at noResolver

private theorem field_sample (strict : Bool) : (kind : FieldKind ρ) → kind.UniqueNames →
    kind.resolvers = [] → kind.sample ≠ .null ∧ field strict kind kind.sample = []
  | .item (.scalar kind), unique, noResolver => item_sample strict (.scalar kind) unique noResolver
  | .item (.object schema), unique, noResolver =>
      item_sample strict (.object schema) unique noResolver
  | .item (.custom _), _, noResolver => by
      simp [FieldKind.resolvers, ItemKind.resolvers] at noResolver
  | .array _, _, _ => by simp [FieldKind.sample, field, items]

private theorem fields_sample (strict : Bool) : (declared : List (String × Field ρ)) →
    UniqueNamesIn declared → resolversIn declared = [] → ∀ pair ∈ declared,
      pair.2.kind.sample ≠ .null ∧ field strict pair.2.kind pair.2.kind.sample = []
  | [], _, _ => by simp
  | (_, ⟨kind, _⟩) :: rest, unique, noResolver => by
      obtain ⟨noneHere, noneLater⟩ := List.append_eq_nil_iff.mp noResolver
      exact List.forall_mem_cons.mpr
        ⟨field_sample strict kind unique.1 noneHere, fields_sample strict rest unique.2 noneLater⟩

end

/-! ## A value that is refused at a chosen place -/

/-- Some value makes a plan begin by refusing a value of the wrong kind at the
first location of the place, in either mode. -/
def Refutes (plan : Bool → Value → List (Step ρ)) (site : Site) : Prop :=
  ∃ bad actual, bad ≠ Value.null ∧ bad.UniqueNames ∧ ∀ strict, ∃ later,
    plan strict bad = ⟨site.first, .refuse (.wrongKind site.kind actual)⟩ :: later

private theorem refutes_here {plan : Bool → Value → List (Step ρ)} {kind : String} (bad : Value)
    (optional : Bool) (held : bad ≠ .null) (unique : bad.UniqueNames)
    (refused : ∀ strict, plan strict bad = [.refuse (.wrongKind kind bad)]) :
    Refutes plan (.here kind optional) :=
  ⟨bad, bad, held, unique, fun strict => ⟨[], refused strict⟩⟩

private theorem refutes_array {element : ItemKind ρ} {site : Site}
    (inside : Refutes (fun strict => item strict element) site) :
    Refutes (fun strict => field strict (.array element)) (site.below .items) := by
  obtain ⟨bad, actual, held, unique, refused⟩ := inside
  refine ⟨.array [bad], actual, by simp, ⟨unique, trivial⟩, fun strict => ?_⟩
  obtain ⟨later, begins⟩ := refused strict
  refine ⟨later.map (Step.below (.item 0)), ?_⟩
  have notNull : bad.isNull = false := by cases bad <;> simp_all [Value.isNull]
  simp only [field, items, notNull, begins, List.append_nil]
  rfl

/-- Where the members of all other fields are sound, the plan begins with the one
field that is not. -/
theorem fields_begin {strict : Bool} {declared : List (String × Field ρ)}
    {members : List (String × Value)} {name : String} {kind : FieldKind ρ} {optional : Bool}
    {bad : Value} {step : Step ρ} {later : List (Step ρ)}
    (distinct : (Entries.names declared).Nodup) (listed : (name, ⟨kind, optional⟩) ∈ declared)
    (found : Entries.get? name members = some bad) (held : bad ≠ .null)
    (begins : field strict kind bad = step :: later)
    (sound : ∀ key other, (key, other) ∈ declared → key ≠ name → ∃ value,
      Entries.get? key members = some value ∧ value ≠ .null ∧
        Plan.field strict other.kind value = []) :
    ∃ rest, fields strict declared members = step.below (.member name) :: rest := by
  induction declared with
  | nil => simp at listed
  | cons head others ih =>
      obtain ⟨key, ⟨first, wasOptional⟩⟩ := head
      rw [Entries.names_cons, List.nodup_cons] at distinct
      rw [fields]
      rcases List.mem_cons.mp listed with same | elsewhere
      · cases same
        rw [found, present_some held, begins]
        exact ⟨_, rfl⟩
      · have different : key ≠ name := by
          intro same
          exact distinct.1 (List.mem_map.mpr ⟨_, elsewhere, same.symm⟩)
        obtain ⟨value, there, notNull, nothing⟩ :=
          sound key ⟨first, wasOptional⟩ List.mem_cons_self different
        rw [there, present_some notNull, nothing]
        exact ih distinct.2 elsewhere fun key other member =>
          sound key other (List.mem_cons_of_mem _ member)

private theorem refutes_object {declared : List (String × Field ρ)}
    (unique : (Schema.mk declared).UniqueNames) (noResolver : resolversIn declared = [])
    {name : String} {kind : FieldKind ρ} {optional : Bool}
    (listed : (name, ⟨kind, optional⟩) ∈ declared) {site : Site}
    (inside : Refutes (fun strict => field strict kind) site) :
    Refutes (fun strict => item strict (.object ⟨declared⟩)) (site.below (.member name)) := by
  obtain ⟨bad, actual, held, uniqueBad, refused⟩ := inside
  have present : Entries.get? name (sampleFields declared) = some kind.sample :=
    get?_sampleFields unique.1 listed
  let members := Entries.insert name bad (sampleFields declared)
  have known : Entries.names members = Entries.names declared := by
    rw [Entries.names_insert_of_get? present, names_sampleFields]
  have uniqueMembers :
      ((Value.object (sampleFields declared)).replace (.member name) bad).UniqueNames :=
    Value.uniqueNames_replace (ItemKind.uniqueNames_sample (.object ⟨declared⟩) unique) uniqueBad
  refine ⟨.object members, actual, by simp, uniqueMembers, fun strict => ?_⟩
  obtain ⟨later, begins⟩ := refused strict
  have sound : ∀ key other, (key, other) ∈ declared → key ≠ name → ∃ value,
      Entries.get? key members = some value ∧ value ≠ .null ∧
        Plan.field strict other.kind value = [] := by
    intro key other member different
    have sample := get?_sampleFields unique.1 member
    exact ⟨_, (Entries.get?_insert_of_ne different.symm bad _).trans sample,
      fields_sample strict declared unique.2 noResolver (key, other) member⟩
  obtain ⟨rest, starts⟩ := fields_begin unique.1 listed
    (Entries.get?_insert_self name bad _) held begins sound
  refine ⟨rest, ?_⟩
  change item strict (.object ⟨declared⟩) (.object members) = _
  rw [item, object_eq_fields (known ▸ List.Subset.refl _)]
  exact starts

mutual

private theorem refutes_item : (kind : ItemKind ρ) → kind.UniqueNames → kind.resolvers = [] →
    ∀ optional, ∀ site ∈ Site.here kind.name optional :: kind.sites,
      Refutes (fun strict => item strict kind) site
  | .scalar kind, _, _, optional, site, listed => by
      rw [ItemKind.sites, List.mem_singleton] at listed
      subst listed
      refine refutes_here (.array []) optional (by simp) trivial fun strict => ?_
      cases kind <;> rfl
  | .object ⟨declared⟩, unique, noResolver, optional, site, listed => by
      rcases List.mem_cons.mp listed with rfl | inside
      · exact refutes_here (.array []) optional (by simp) trivial fun strict => rfl
      · obtain ⟨name, kind, wasOptional, deeper, member, rfl, refuted⟩ :=
          refutes_fields declared unique.2 noResolver site inside
        exact refutes_object unique noResolver member refuted
  | .custom _, _, noResolver, _, _, _ => by simp [ItemKind.resolvers] at noResolver

private theorem refutes_field : (kind : FieldKind ρ) → kind.UniqueNames → kind.resolvers = [] →
    ∀ optional, ∀ site ∈ Site.here kind.name optional :: kind.sites,
      Refutes (fun strict => field strict kind) site
  | .item (.scalar kind), unique, noResolver, optional, site, listed =>
      refutes_item (.scalar kind) unique noResolver optional site listed
  | .item (.object schema), unique, noResolver, optional, site, listed =>
      refutes_item (.object schema) unique noResolver optional site listed
  | .item (.custom _), _, noResolver, _, _, _ => by
      simp [FieldKind.resolvers, ItemKind.resolvers] at noResolver
  | .array element, unique, noResolver, optional, site, listed => by
      rcases List.mem_cons.mp listed with rfl | inside
      · exact refutes_here (.object []) optional (by simp) ⟨List.nodup_nil, trivial⟩
          fun strict => rfl
      · obtain ⟨deeper, member, rfl⟩ := List.mem_map.mp inside
        exact refutes_array (refutes_item element unique noResolver false deeper member)

private theorem refutes_fields : (declared : List (String × Field ρ)) → UniqueNamesIn declared →
    resolversIn declared = [] → ∀ site ∈ sitesOf declared, ∃ name kind optional deeper,
      (name, ⟨kind, optional⟩) ∈ declared ∧ site = deeper.below (.member name) ∧
        Refutes (fun strict => field strict kind) deeper
  | [], _, _, _, listed => by simp [sitesOf] at listed
  | (name, ⟨kind, optional⟩) :: rest, unique, noResolver, site, listed => by
      obtain ⟨noneHere, noneLater⟩ := List.append_eq_nil_iff.mp noResolver
      rcases List.mem_append.mp listed with here | later
      · obtain ⟨deeper, member, rfl⟩ := List.mem_map.mp here
        exact ⟨name, kind, optional, deeper, List.mem_cons_self, rfl,
          refutes_field kind unique.1 noneHere optional deeper member⟩
      · obtain ⟨key, found, wasOptional, deeper, member, below⟩ :=
          refutes_fields rest unique.2 noneLater site later
        exact ⟨key, found, wasOptional, deeper, List.mem_cons_of_mem _ member, below⟩

end

end Plan

/-- A document is rejected as no object, for a member that is not declared, or for
what one of the listed places explains. -/
theorem explained_of_rejected {schema : Schema (Resolver σ)} (unique : schema.UniqueNames)
    {options : Options} {document : Value} {state : σ} {violation : Violation}
    (ended : ((validate schema options document).run state).1 = .error (.rejected violation)) :
    ((∀ members, document ≠ .object members) ∧
        violation = .wrongKind options.documentPlace "object" document) ∨
      (∃ path name, violation = .unexpected path name) ∨
      ∃ site ∈ schema.sites, ∃ location refusal, site.Covers location ∧ site.Explains refusal ∧
        violation = refusal.violation (KeyPath.render options.path location) := by
  obtain ⟨calls, result, final, validates⟩ := exists_validates schema options document state
  rw [validates.run_validate unique] at ended
  subst ended
  cases validates with
  | notObject _ other => exact .inl ⟨other, rfl⟩
  | @performed members _ _ _ _ _ runs =>
      obtain ⟨declared⟩ := schema
      obtain ⟨location, refusal, listed, same⟩ := runs.exists_refused
      have explained :=
        Plan.explained_object (Plan.explained_fields options.strict declared members)
      rcases explained location refusal listed with
        ⟨name, rfl⟩ | ⟨site, member, covers, explains⟩
      · exact .inr (.inl ⟨_, name, same⟩)
      · exact .inr (.inr ⟨site, member, location, refusal, covers, explains, same⟩)

/-- Each listed place is the first fault of some object, in either mode. -/
theorem Schema.exists_refused {schema : Schema ρ} (unique : schema.UniqueNames)
    (noResolver : schema.resolvers = []) {site : Site} (listed : site ∈ schema.sites) :
    ∃ members actual, (Value.object members).UniqueNames ∧ ∀ strict, ∃ later,
      Plan.object strict schema members =
        ⟨site.first, .refuse (.wrongKind site.kind actual)⟩ :: later := by
  obtain ⟨declared⟩ := schema
  obtain ⟨name, kind, optional, deeper, member, rfl, refuted⟩ :=
    Plan.refutes_fields declared unique.2 noResolver site listed
  obtain ⟨document, actual, -, uniqueDocument, refused⟩ :=
    Plan.refutes_object unique noResolver member refuted
  cases document with
  | object members => exact ⟨members, actual, uniqueDocument, refused⟩
  | null | bool | number | string | array =>
      -- A document that is no object is refused as a whole, not at a member.
      obtain ⟨later, begins⟩ := refused true
      simp [Plan.item, Step.refuse, Site.below, Site.first] at begins

/-- The lines that a schema lists and the places that its validations report. A
value of the wrong kind inside the document, or a missing one, lies at a listed
place, whose line says the kind, or that it is required. At every place some
document has its first fault. -/
theorem validate_reports_listed (schema : Schema.Distinct (Resolver σ))
    (noResolver : schema.resolvers = []) (wellFormed : ¬ schema.Malformed) :
    schema.declarations = schema.sites.map (Site.declaration "") ∧
    (∀ strict members (state : σ) path expected actual,
      ((validate schema ⟨strict, none⟩ (.object members)).run state).1 =
        .error (.rejected (.wrongKind path expected actual)) →
      ∃ site ∈ schema.sites, ∃ location, site.Covers location ∧
        path = KeyPath.render "" location ∧ expected = site.kind) ∧
    (∀ strict document (state : σ) path,
      ((validate schema ⟨strict, none⟩ document).run state).1 =
        .error (.rejected (.missing path)) →
      ∃ site ∈ schema.sites, ∃ location, site.Covers location ∧
        path = KeyPath.render "" location ∧ site.optional = false) ∧
    (∀ site ∈ schema.sites, ∃ document actual, document.UniqueNames ∧ ∀ strict (state : σ),
      (validate schema ⟨strict, none⟩ document).run state =
        (.error (.rejected (.wrongKind (KeyPath.render "" site.first) site.kind actual)),
          state)) := by
  refine ⟨schema.declarations_eq, ?wrongKind, ?missing, ?complete⟩
  case wrongKind =>
    intro strict members state path expected actual ended
    rcases explained_of_rejected schema.unique ended with ⟨other, -⟩ | ⟨_, _, unexpected⟩ |
      ⟨site, member, location, refusal, covers, explains, same⟩
    · exact absurd rfl (other members)
    · cases unexpected
    · cases refusal with
      | wrongKind wanted held =>
          cases same
          exact ⟨site, member, location, covers, rfl, explains⟩
      | missing => cases same
      | unexpected name => cases same
  case missing =>
    intro strict document state path ended
    rcases explained_of_rejected schema.unique ended with ⟨-, wrongKind⟩ | ⟨_, _, unexpected⟩ |
      ⟨site, member, location, refusal, covers, explains, same⟩
    · cases wrongKind
    · cases unexpected
    · cases refusal with
      | missing =>
          cases same
          exact ⟨site, member, location, covers, rfl, explains⟩
      | wrongKind wanted held => cases same
      | unexpected name => cases same
  case complete =>
    intro site listed
    obtain ⟨members, actual, uniqueDocument, refused⟩ :=
      Schema.exists_refused schema.unique noResolver listed
    refine ⟨.object members, actual, uniqueDocument, fun strict state => ?_⟩
    obtain ⟨later, begins⟩ := refused strict
    have runs : Plan.Runs "" (Plan.object strict schema members) (.object members) state []
        (.error (.rejected (.wrongKind (KeyPath.render "" site.first) site.kind actual)))
        state := by
      rw [begins]
      exact .refused
    have sound : schema.emptyObject? (Options.path ⟨strict, none⟩) = none :=
      Schema.emptyObject?_eq_none_iff.mpr wellFormed
    exact (Validates.performed sound runs).run_validate schema.unique

def Schema.invoice : Schema (Resolver Unit) :=
  ⟨[("note", .withOptional true .string), ("total", .number),
    ("lines", .array (.object ⟨[("sum", .number)]⟩))]⟩

/-- A missing sum of the second line is reported where the listing has the sums of
all lines, and some other document is rejected for the sum of its first line. -/
theorem validate_reports_listed_invoice :
    let document : Value := .object [("total", .number (.integer 1)),
      ("lines", .array [.object [("sum", .number (.integer 1))], .object []])]
    let sums : Site := ⟨[.member "lines", .items, .member "sum"], "number", false⟩
    let ended := (validate Schema.invoice ⟨true, none⟩ document).run ()
    Schema.invoice.UniqueNames ∧ Schema.invoice.resolvers = [] ∧ ¬ Schema.invoice.Malformed ∧
      Schema.invoice.declarations =
        [⟨"note", "string", true⟩, ⟨"total", "number", false⟩, ⟨"lines", "array", false⟩,
          ⟨"lines[]", "object", false⟩, ⟨"lines[].sum", "number", false⟩] ∧
      ended = (.error (.rejected (.missing "lines[1].sum")), ()) ∧
      (∃ site ∈ Schema.invoice.sites, ∃ location, site.Covers location ∧
        "lines[1].sum" = KeyPath.render "" location ∧ site.optional = false) ∧
      sums ∈ Schema.invoice.sites ∧ sums.declaration "" = ⟨"lines[].sum", "number", false⟩ ∧
      ∃ other actual, other.UniqueNames ∧
        (validate Schema.invoice ⟨true, none⟩ other).run () =
          (.error (.rejected (.wrongKind "lines[0].sum" "number" actual)), ()) := by
  intro document sums ended
  have unique : Schema.invoice.UniqueNames := by decide
  have wellFormed : ¬ Schema.invoice.Malformed :=
    (Schema.invoice.emptyObjects_eq_nil_iff "").mp rfl
  obtain ⟨-, -, missing, complete⟩ :=
    validate_reports_listed ⟨Schema.invoice, unique⟩ rfl wellFormed
  have rejected : ended = (.error (.rejected (.missing "lines[1].sum")), ()) := rfl
  have listed : sums ∈ Schema.invoice.sites := by
    simp [sums, Schema.invoice, Schema.sites, sitesOf, FieldKind.sites, ItemKind.sites,
      Site.below, Site.here, Field.number, Field.scalar, Field.required, Field.array,
      Field.string, Field.withOptional, FieldKind.name, ItemKind.name, Scalar.name]
  obtain ⟨other, actual, uniqueOther, refused⟩ := complete sums listed
  exact ⟨unique, rfl, wellFormed, rfl, rejected,
    missing true document () _ (congrArg Prod.fst rejected), listed, rfl, other, actual,
    uniqueOther, refused true ()⟩

end DocShape
