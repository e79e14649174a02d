import Mathlib.Data.List.Forall2
import DocShape.Schema.Listing
import DocShape.Proofs.Plan

/-! The lines of a listing as places in a schema. A place stands for all the
locations that differ from it in the indices of items only, and whatever a
validation rejects lies at a location of some listed place. -/

set_option autoImplicit false

namespace DocShape

open Json (Value)

variable {ρ : Type}

/-- A step from a declaration to one inside it: to a field, or to all items. -/
inductive Marker where
  | member (name : String)
  | items
deriving DecidableEq

namespace Marker

inductive Covers : Marker → Segment → Prop where
  | member {name : String} : Covers (.member name) (.member name)
  | item {index : Nat} : Covers .items (.item index)

/-- Of all items, the first. -/
def first : Marker → Segment
  | .member name => .member name
  | .items => .item 0

end Marker

def KeyPath.mark (path : String) : Marker → String
  | .member name => join path name
  | .items => anyItem path

structure Site where
  markers : List Marker
  kind : String
  optional : Bool

namespace Site

/-- The place of a declaration itself. -/
def here (kind : String) (optional : Bool) : Site :=
  ⟨[], kind, optional⟩

def below (marker : Marker) (site : Site) : Site :=
  { site with markers := marker :: site.markers }

/-- The line that lists the place, whose markers are written as key paths are,
with empty brackets for all items. -/
def declaration (path : String) (site : Site) : Declaration :=
  ⟨site.markers.foldl KeyPath.mark path, site.kind, site.optional⟩

def Covers (site : Site) (location : Location) : Prop :=
  List.Forall₂ Marker.Covers site.markers location

/-- The location of the place that goes into the first item of every array. -/
def first (site : Site) : Location :=
  site.markers.map Marker.first

theorem Covers.below {site : Site} {location : Location} {marker : Marker} {segment : Segment}
    (covers : site.Covers location) (step : marker.Covers segment) :
    (site.below marker).Covers (segment :: location) :=
  .cons step covers

private theorem covers_here (kind : String) (optional : Bool) : (here kind optional).Covers [] :=
  .nil

end Site

mutual

/-- The places inside an item. -/
def ItemKind.sites : ItemKind ρ → List Site
  | .scalar _ => []
  | .object ⟨fields⟩ => sitesOf fields
  | .custom _ => []

/-- The places inside a field. -/
def FieldKind.sites : FieldKind ρ → List Site
  | .item kind => kind.sites
  | .array element => (.here element.name false :: element.sites).map (Site.below .items)

def sitesOf : List (String × Field ρ) → List Site
  | [] => []
  | (name, ⟨kind, optional⟩) :: rest =>
      (.here kind.name optional :: kind.sites).map (Site.below (.member name)) ++ sitesOf rest

end

def Schema.sites (schema : Schema ρ) : List Site :=
  sitesOf schema.fields

/-! ## Every line of a listing is one of a place -/

theorem Site.map_declaration_below (path : String) (marker : Marker) (sites : List Site) :
    (sites.map (Site.below marker)).map (Site.declaration path) =
      sites.map (Site.declaration (KeyPath.mark path marker)) := by
  rw [List.map_map]
  rfl

mutual

theorem ItemKind.declarations_eq : (kind : ItemKind ρ) → ∀ path,
    kind.declarations path = kind.sites.map (Site.declaration path)
  | .scalar _, _ => rfl
  | .object ⟨fields⟩, path => declarationsOf_eq fields path
  | .custom _, _ => rfl

theorem FieldKind.declarations_eq : (kind : FieldKind ρ) → ∀ path,
    kind.declarations path = kind.sites.map (Site.declaration path)
  | .item kind, path => ItemKind.declarations_eq kind path
  | .array element, path => by
      rw [FieldKind.declarations, FieldKind.sites, Site.map_declaration_below, List.map_cons,
        ItemKind.declarations_eq element]
      rfl

private theorem declarationsOf_eq : (fields : List (String × Field ρ)) → ∀ path,
    declarationsOf path fields = (sitesOf fields).map (Site.declaration path)
  | [], _ => rfl
  | (name, ⟨kind, optional⟩) :: rest, path => by
      rw [declarationsOf, sitesOf, List.map_append, Site.map_declaration_below, List.map_cons,
        FieldKind.declarations_eq kind, declarationsOf_eq rest, List.cons_append]
      rfl

end

theorem Schema.declarations_eq (schema : Schema ρ) :
    schema.declarations = schema.sites.map (Site.declaration "") :=
  declarationsOf_eq schema.fields ""

/-! ## What is refused lies at a listed place -/

/-- Of a place, a value may be of the wrong kind, or missing if it is required. -/
def Site.Explains (site : Site) : Refusal → Prop
  | .wrongKind expected _ => expected = site.kind
  | .missing => site.optional = false
  | .unexpected _ => False

namespace Plan

/-- The steps refuse nothing but undeclared members and what one of the places
explains. -/
def Explained (sites : List Site) (steps : List (Step ρ)) : Prop :=
  ∀ location refusal, ⟨location, .refuse refusal⟩ ∈ steps →
    (∃ name, refusal = .unexpected name) ∨
      ∃ site ∈ sites, site.Covers location ∧ site.Explains refusal

variable {sites others : List Site} {steps later : List (Step ρ)}

private theorem explained_nil : Explained sites ([] : List (Step ρ)) := by
  simp [Explained]

private theorem explained_here {site : Site} {refusal : Refusal} (covers : site.Covers [])
    (explains : site.Explains refusal) :
    Explained (site :: sites) [(Step.refuse refusal : Step ρ)] := by
  intro location other listed
  cases List.mem_singleton.mp listed
  exact .inr ⟨site, List.mem_cons_self, covers, explains⟩

theorem Explained.mono (explained : Explained sites steps) (within : sites ⊆ others) :
    Explained others steps := by
  intro location refusal listed
  rcases explained location refusal listed with unexpected | ⟨site, member, explains⟩
  · exact .inl unexpected
  · exact .inr ⟨site, within member, explains⟩

theorem Explained.append (explained : Explained sites steps) (rest : Explained sites later) :
    Explained sites (steps ++ later) := by
  intro location refusal listed
  rcases List.mem_append.mp listed with here | there
  · exact explained location refusal here
  · exact rest location refusal there

theorem Explained.below (explained : Explained sites steps) {marker : Marker} {segment : Segment}
    (covers : marker.Covers segment) :
    Explained (sites.map (Site.below marker)) (steps.map (Step.below segment)) := by
  intro location refusal listed
  obtain ⟨⟨inner, action⟩, member, same⟩ := List.mem_map.mp listed
  cases same
  rcases explained inner refusal member with unexpected | ⟨site, member, inside, explains⟩
  · exact .inl unexpected
  · exact .inr ⟨site.below marker, List.mem_map_of_mem member, inside.below covers, explains⟩

private theorem explained_undeclared (declared : List (String × Field ρ))
    (members : List (String × Value)) : Explained sites (undeclared declared members) := by
  intro location refusal listed
  obtain ⟨name, -, same⟩ := List.mem_map.mp listed
  cases same
  exact .inl ⟨name, rfl⟩

private theorem explained_items {plan : Value → List (Step ρ)} {site : Site}
    (covers : site.Covers []) (required : site.optional = false)
    (explained : ∀ value, Explained (site :: sites) (plan value)) (index : Nat)
    (values : List Value) :
    Explained ((site :: sites).map (Site.below .items)) (items plan index values) := by
  induction values generalizing index with
  | nil => exact explained_nil
  | cons value rest ih =>
      refine Explained.append (Explained.below ?_ .item) (ih (index + 1))
      split
      · exact explained_here covers required
      · exact explained value

private theorem explained_present {plan : Value → List (Step ρ)} {kind : String} {optional : Bool}
    (explained : ∀ value, Explained (.here kind optional :: sites) (plan value))
    (member : Option Value) :
    Explained (.here kind optional :: sites) (present plan optional member) := by
  rcases absent_or_present member with absent | ⟨value, rfl, held⟩
  · rw [present_absent absent]
    cases optional with
    | true => exact explained_nil
    | false => exact explained_here (Site.covers_here kind false) rfl
  · rw [present_some held]
    exact explained value

theorem explained_object {strict : Bool} {declared : List (String × Field ρ)}
    {members : List (String × Value)}
    (others : Explained (sitesOf declared) (fields strict declared members)) :
    Explained (sitesOf declared) (object strict ⟨declared⟩ members) := by
  rw [object]
  refine Explained.append ?_ others
  split
  · exact explained_undeclared declared members
  · exact explained_nil

mutual

private theorem explained_item (strict : Bool) : (kind : ItemKind ρ) → ∀ optional value,
    Explained (.here kind.name optional :: kind.sites) (item strict kind value)
  | .scalar kind, optional, value => by
      rw [item]
      split
      · exact explained_nil
      · exact explained_here (Site.covers_here _ optional) rfl
  | .object ⟨declared⟩, optional, value => by
      cases value with
      | object members =>
          have inside := explained_object (explained_fields strict declared members)
          exact inside.mono (List.subset_cons_self _ _)
      | null | bool | number | string | array =>
          exact explained_here (Site.covers_here _ optional) rfl
  | .custom resolver, optional, value => by
      simp [item, Step.consult, Explained]

private theorem explained_field (strict : Bool) : (kind : FieldKind ρ) → ∀ optional value,
    Explained (.here kind.name optional :: kind.sites) (field strict kind value)
  | .item (.custom resolver), optional, value => by
      simp [field, Step.consult, Explained]
  | .item (.scalar kind), optional, value => explained_item strict (.scalar kind) optional value
  | .item (.object schema), optional, value => explained_item strict (.object schema) optional value
  | .array element, optional, value => by
      cases value with
      | array values =>
          have each := explained_item strict element false
          exact (explained_items (Site.covers_here _ false) rfl each 0 values).mono
            (List.subset_cons_self _ _)
      | null | bool | number | string | object =>
          exact explained_here (Site.covers_here _ optional) rfl

theorem explained_fields (strict : Bool) : (declared : List (String × Field ρ)) → ∀ members,
    Explained (sitesOf declared) (fields strict declared members)
  | [], members => by
      rw [fields]
      exact explained_nil
  | (name, ⟨kind, optional⟩) :: rest, members => by
      have here := explained_present (explained_field strict kind optional)
        (Entries.get? name members)
      rw [fields, sitesOf]
      exact Explained.append ((here.below .member).mono (List.subset_append_left _ _))
        ((explained_fields strict rest members).mono (List.subset_append_right _ _))

end

end Plan

end DocShape
