import DocShape.Proofs.ListedRows
import DocShape.Proofs.Resolvers

/-! Nothing is lost in a listing. Where names are plain, the listed paths tell the declared
places, and these tell the schema: the places inside a field are those behind it up to
the next place that is one step deep. -/

set_option autoImplicit false

namespace DocShape

variable {ρ : Type}

/-! ## From the places to the schema -/

namespace Site

/-- The place of a field of the schema itself. -/
def Outermost (site : Site) : Prop :=
  site.markers.length = 1

private theorem below_injective (marker : Marker) : Function.Injective (below marker) := by
  intro left right same
  obtain ⟨markers, kind, optional⟩ := left
  obtain ⟨others, otherKind, otherOptional⟩ := right
  simpa [below] using same

private theorem not_outermost_below {marker : Marker} {site : Site} (inside : site.markers ≠ []) :
    ¬ (site.below marker).Outermost := by
  simpa [Outermost, below] using inside

end Site

private theorem markers_ne_nil_of_mem_sitesOf {site : Site} {fields : List (String × Field ρ)}
    (listed : site ∈ sitesOf fields) : site.markers ≠ [] := by
  induction fields with
  | nil => cases listed
  | cons head rest ih =>
      obtain ⟨name, ⟨kind, optional⟩⟩ := head
      rcases List.mem_append.mp listed with here | later
      · obtain ⟨inner, -, rfl⟩ := List.mem_map.mp here
        exact List.cons_ne_nil _ _
      · exact ih later

private theorem FieldKind.markers_ne_nil {site : Site} {kind : FieldKind ρ}
    (listed : site ∈ kind.sites) :
    site.markers ≠ [] := by
  cases kind with
  | item kind =>
      cases kind with
      | object schema =>
          obtain ⟨fields⟩ := schema
          have inside : site ∈ sitesOf fields := listed
          exact markers_ne_nil_of_mem_sitesOf inside
      | scalar | custom => cases listed
  | array element =>
      obtain ⟨inner, -, rfl⟩ := List.mem_map.mp listed
      exact List.cons_ne_nil _ _

private theorem FieldKind.not_outermost {kind : FieldKind ρ} {marker : Marker} :
    ∀ site ∈ kind.sites.map (Site.below marker), ¬ site.Outermost := by
  rw [List.forall_mem_map]
  intro site listed
  exact Site.not_outermost_below (FieldKind.markers_ne_nil listed)

private theorem outermost_head?_sitesOf (fields : List (String × Field ρ)) :
    ∀ site ∈ (sitesOf fields).head?, site.Outermost := by
  cases fields with
  | nil => simp [sitesOf]
  | cons head rest =>
      obtain ⟨name, ⟨kind, optional⟩⟩ := head
      simp [sitesOf, Site.Outermost, Site.below, Site.here]

theorem Scalar.name_injective : Function.Injective Scalar.name := by
  intro left right
  cases left <;> cases right <;> decide

theorem Scalar.name_ne_object (kind : Scalar) : kind.name ≠ "object" := by
  cases kind <;> decide

-- Custom kinds are left out: of those, places do not tell the resolver.
mutual

theorem ItemKind.eq_of_sites : (kind other : ItemKind ρ) → kind.resolvers = [] →
    other.resolvers = [] → kind.name = other.name → kind.sites = other.sites → kind = other
  | .scalar _, .scalar _, _, _, sameName, _ =>
      congrArg ItemKind.scalar (Scalar.name_injective sameName)
  | .scalar kind, .object _, _, _, sameName, _ => absurd sameName kind.name_ne_object
  | .object _, .scalar other, _, _, sameName, _ => absurd sameName.symm other.name_ne_object
  | .object ⟨fields⟩, .object ⟨others⟩, bare, otherBare, _, same =>
      congrArg (fun fields => ItemKind.object ⟨fields⟩)
        (eq_of_sitesOf fields others bare otherBare same)
  | .custom _, _, held, _, _, _ => nomatch held
  | _, .custom _, _, held, _, _ => nomatch held

theorem FieldKind.eq_of_sites : (kind other : FieldKind ρ) → kind.resolvers = [] →
    other.resolvers = [] → kind.name = other.name → kind.sites = other.sites → kind = other
  | .item kind, .item other, bare, otherBare, sameName, same =>
      congrArg FieldKind.item (ItemKind.eq_of_sites kind other bare otherBare sameName same)
  | .item kind, .array _, _, _, sameName, _ => absurd sameName kind.name_ne_array
  | .array _, .item other, _, _, sameName, _ => absurd sameName.symm other.name_ne_array
  | .array element, .array other, bare, otherBare, _, same => by
      have inside := List.map_injective_iff.mpr (Site.below_injective .items) same
      obtain ⟨first, later⟩ := List.cons.inj inside
      exact congrArg FieldKind.array
        (ItemKind.eq_of_sites element other bare otherBare (congrArg Site.kind first) later)

private theorem eq_of_sitesOf : (fields others : List (String × Field ρ)) → resolversIn fields =
    [] →
    resolversIn others = [] → sitesOf fields = sitesOf others → fields = others
  | [], [], _, _, _ => rfl
  | [], (_, ⟨_, _⟩) :: _, _, _, same => nomatch same
  | (_, ⟨_, _⟩) :: _, [], _, _, same => nomatch same
  | (name, ⟨kind, optional⟩) :: rest, (other, ⟨otherKind, otherOptional⟩) :: others, bare,
      otherBare, same => by
      obtain ⟨bareHere, bareRest⟩ := List.append_eq_nil_iff.mp bare
      obtain ⟨otherBareHere, otherBareRest⟩ := List.append_eq_nil_iff.mp otherBare
      obtain ⟨first, later⟩ := List.cons.inj same
      obtain ⟨⟨rfl, -⟩, sameName, rfl⟩ :
          (name = other ∧ True) ∧ kind.name = otherKind.name ∧ optional = otherOptional := by
        simpa [Site.below, Site.here] using first
      obtain ⟨inside, behind⟩ := append_inj_of_stop FieldKind.not_outermost
        FieldKind.not_outermost (outermost_head?_sitesOf rest) (outermost_head?_sitesOf others)
        later
      have sameSites := List.map_injective_iff.mpr (Site.below_injective (.member name)) inside
      rw [FieldKind.eq_of_sites kind otherKind bareHere otherBareHere sameName sameSites,
        eq_of_sitesOf rest others bareRest otherBareRest behind]

end

theorem Schema.eq_of_sites {schema other : Schema ρ} (bare : schema.resolvers = [])
    (otherBare : other.resolvers = []) (same : schema.sites = other.sites) : schema = other := by
  obtain ⟨fields⟩ := schema
  obtain ⟨others⟩ := other
  exact congrArg Schema.mk (eq_of_sitesOf fields others bare otherBare same)

/-! ## From the text to the places -/

theorem Declaration.columns_injective : Function.Injective columns := by
  intro left right same
  obtain ⟨path, kind, optional⟩ := left
  obtain ⟨otherPath, otherKind, otherOptional⟩ := right
  cases optional <;> cases otherOptional <;> simp_all [columns, presence]

theorem Site.eq_of_declaration {path : String} {site other : Site}
    (plain : KeyPath.PlainMarkers site.markers) (otherPlain : KeyPath.PlainMarkers other.markers)
    (same : site.declaration path = other.declaration path) : site = other := by
  obtain ⟨samePath, sameKind, sameOptional⟩ := Declaration.mk.inj same
  have sameMarkers := KeyPath.foldl_mark_inj path plain otherPlain samePath
  cases site
  cases other
  simp_all

theorem sites_eq_of_declarations {path : String} {sites others : List Site}
    (plain : ∀ site ∈ sites, KeyPath.PlainMarkers site.markers)
    (otherPlain : ∀ site ∈ others, KeyPath.PlainMarkers site.markers)
    (same : sites.map (Site.declaration path) = others.map (Site.declaration path)) :
    sites = others := by
  induction sites generalizing others with
  | nil => exact (List.map_eq_nil_iff.mp same.symm).symm
  | cons site rest ih =>
      cases others with
      | nil => cases same
      | cons other others =>
          obtain ⟨plainHere, plainRest⟩ := List.forall_mem_cons.mp plain
          obtain ⟨plainThere, plainOthers⟩ := List.forall_mem_cons.mp otherPlain
          obtain ⟨sameHere, sameRest⟩ := List.cons.inj same
          rw [Site.eq_of_declaration plainHere plainThere sameHere,
            ih plainRest plainOthers sameRest]

theorem Schema.plainMarkers {schema : Schema ρ}
    (names : ∀ name ∈ schema.names, KeyPath.PlainName name) :
    ∀ site ∈ schema.sites, KeyPath.PlainMarkers site.markers :=
  fun site listed name onWay => names name (Schema.mem_names_iff.mpr ⟨site, listed, onWay⟩)

end DocShape
