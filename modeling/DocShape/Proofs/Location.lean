import DocShape.Json.Value
import DocShape.KeyPath
import DocShape.Proofs.Entries

/-! Locations inside a value, apart from their text. Storing at one location is
seen from no location that leads elsewhere, and from those above it only in
what they contain. -/

set_option autoImplicit false

namespace DocShape

inductive Segment where
  | member (name : String)
  | item (index : Nat)
deriving DecidableEq

abbrev Location := List Segment

namespace KeyPath

def extend (path : String) : Segment → String
  | .member name => join path name
  | .item index => item path index

theorem join_of_ne_empty {path : String} (notEmpty : path ≠ "") (name : String) :
    join path name = path ++ "." ++ name := by
  rw [join, if_neg (mt String.isEmpty_iff.mp notEmpty)]

theorem item_ne_empty (path : String) (index : Nat) : item path index ≠ "" := by
  simp [item]

theorem extend_ne_empty {path : String} (notEmpty : path ≠ "") (segment : Segment) :
    extend path segment ≠ "" := by
  cases segment with
  | member name => simp [extend, join_of_ne_empty notEmpty]
  | item index => exact item_ne_empty path index

/-- The key path of a location that starts at the place of the given path. -/
def render (path : String) (location : Location) : String :=
  location.foldl extend path

@[simp] theorem render_nil (path : String) : render path [] = path := rfl

@[simp] theorem render_cons (path : String) (segment : Segment) (location : Location) :
    render path (segment :: location) = render (extend path segment) location := rfl

end KeyPath

/-- Neither location lies on the way to the other. -/
def Location.Apart (left right : Location) : Prop :=
  ¬ left <+: right ∧ ¬ right <+: left

theorem Location.Apart.symm {left right : Location} (apart : left.Apart right) :
    right.Apart left :=
  ⟨apart.2, apart.1⟩

theorem Location.apart_cons_iff {segment : Segment} {left right : Location} :
    Location.Apart (segment :: left) (segment :: right) ↔ left.Apart right := by
  simp [Location.Apart]

theorem Location.apart_of_ne {first second : Segment} (different : first ≠ second)
    (left right : Location) : Location.Apart (first :: left) (second :: right) := by
  simp [Location.Apart, different, different.symm]

namespace Json.Value

/-- The value one step inside; of a repeated name the first one counts. -/
def inside? : Value → Segment → Option Value
  | .object members, .member name => Entries.get? name members
  | .array items, .item index => items[index]?
  | _, _ => none

/-- Puts a value in the place of the one that is one step inside. -/
def replace : Value → Segment → Value → Value
  | .object members, .member name, stored => .object (Entries.insert name stored members)
  | .array items, .item index, stored => .array (items.set index stored)
  | value, _, _ => value

def at? : Value → Location → Option Value
  | value, [] => some value
  | value, segment :: rest => (value.inside? segment).bind fun inner => inner.at? rest

/-- Stores a value at a location. One that the document does not have is ignored. -/
def store : Value → Location → Value → Value
  | _, [], stored => stored
  | value, segment :: rest, stored =>
      match value.inside? segment with
      | some inner => value.replace segment (inner.store rest stored)
      | none => value

/-- What shows of a value without looking into it: a scalar, the names of an
object in order, the number of items of an array. -/
def surface : Value → Value
  | .array items => .array (items.map fun _ => .null)
  | .object members => .object (members.map fun member => (member.1, .null))
  | value => value

theorem surface_object (members : List (String × Value)) :
    (Value.object members).surface =
      .object ((Entries.names members).map fun name => (name, .null)) := by
  simp [surface, Entries.names]

variable {value old : Value} {segment other : Segment}

theorem inside?_cases (present : value.inside? segment = some old) :
    (∃ members name, value = .object members ∧ segment = .member name ∧
      Entries.get? name members = some old) ∨
    (∃ items index, value = .array items ∧ segment = .item index ∧ items[index]? = some old) := by
  cases value with
  | object members =>
      cases segment with
      | member name => exact .inl ⟨members, name, rfl, rfl, present⟩
      | item index => simp [inside?] at present
  | array items =>
      cases segment with
      | member name => simp [inside?] at present
      | item index => exact .inr ⟨items, index, rfl, rfl, present⟩
  | null | bool | number | string => simp [inside?] at present

theorem inside?_replace_self (present : value.inside? segment = some old) (stored : Value) :
    (value.replace segment stored).inside? segment = some stored := by
  rcases inside?_cases present with ⟨members, name, rfl, rfl, -⟩ | ⟨items, index, rfl, rfl, found⟩
  · simp [inside?, replace]
  · have bound : index < items.length := (List.getElem?_eq_some_iff.mp found).1
    simp [inside?, replace, bound]

theorem inside?_replace_of_ne (different : segment ≠ other) (value stored : Value) :
    (value.replace segment stored).inside? other = value.inside? other := by
  cases value <;> cases segment <;> cases other <;>
    simp_all [inside?, replace, Entries.get?_insert]

theorem replace_inside? (present : value.inside? segment = some old) :
    value.replace segment old = value := by
  rcases inside?_cases present with
    ⟨members, name, rfl, rfl, found⟩ | ⟨items, index, rfl, rfl, found⟩
  · simp [replace, Entries.insert_of_get? found]
  · obtain ⟨bound, rfl⟩ := List.getElem?_eq_some_iff.mp found
    simp [replace]

theorem replace_replace (value : Value) (segment : Segment) (stored later : Value) :
    (value.replace segment stored).replace segment later = value.replace segment later := by
  cases value <;> cases segment <;> simp [replace, Entries.insert_insert]

theorem replace_replace_of_ne (different : segment ≠ other)
    (present : value.inside? segment = some old) (left right : Value) :
    (value.replace segment left).replace other right =
      (value.replace other right).replace segment left := by
  rcases inside?_cases present with
    ⟨members, name, rfl, rfl, found⟩ | ⟨items, index, rfl, rfl, found⟩
  · cases other with
    | member key =>
        have away : name ≠ key := fun same => different (congrArg Segment.member same)
        simp only [replace, Entries.insert_insert_of_ne away found]
    | item place => rfl
  · cases other with
    | member key => rfl
    | item place =>
        have away : index ≠ place := fun same => different (congrArg Segment.item same)
        simp only [replace, List.set_comm _ _ away]

theorem surface_replace (present : value.inside? segment = some old) (stored : Value) :
    (value.replace segment stored).surface = value.surface := by
  rcases inside?_cases present with ⟨members, name, rfl, rfl, found⟩ | ⟨items, index, rfl, rfl, -⟩
  · have sameNames := Entries.names_insert_of_get? found stored
    simp [replace, surface_object, sameNames]
  · simp [replace, surface, List.map_const']

@[simp] theorem at?_nil (value : Value) : value.at? [] = some value := rfl

@[simp] theorem store_nil (value stored : Value) : value.store [] stored = stored := rfl

theorem store_cons (present : value.inside? segment = some old) (location : Location)
    (stored : Value) :
    value.store (segment :: location) stored =
      value.replace segment (old.store location stored) := by
  simp [store, present]

theorem at?_store_self {location : Location} (present : value.at? location = some old)
    (stored : Value) : (value.store location stored).at? location = some stored := by
  induction location generalizing value with
  | nil => simp
  | cons segment location ih =>
      simp only [at?, Option.bind_eq_some_iff] at present
      obtain ⟨inner, found, present⟩ := present
      rw [store_cons found, at?, inside?_replace_self found]
      exact ih present

/-- Storing changes nothing that shows of the value at a location unless that is
the place of the stored value or lies inside it. -/
theorem surface_at?_store {target location : Location} (outside : ¬ target <+: location)
    (value stored : Value) :
    ((value.store target stored).at? location).map surface =
      (value.at? location).map surface := by
  induction target generalizing value location with
  | nil => exact absurd List.nil_prefix outside
  | cons segment target ih =>
      cases found : value.inside? segment with
      | none => simp [store, found]
      | some inner =>
          rw [store_cons found]
          cases location with
          | nil => simp [surface_replace found]
          | cons other location =>
              by_cases same : segment = other
              · subst same
                have outside : ¬ target <+: location := by simpa using outside
                simpa [at?, inside?_replace_self found, found] using ih outside inner
              · simp [at?, inside?_replace_of_ne same]

/-- Storing at one location leaves the value at a location apart from it alone. -/
theorem at?_store_of_apart {target location : Location} (apart : target.Apart location)
    (value stored : Value) : (value.store target stored).at? location = value.at? location := by
  induction target generalizing value location with
  | nil => exact absurd List.nil_prefix apart.1
  | cons segment target ih =>
      cases found : value.inside? segment with
      | none => simp [store, found]
      | some inner =>
          rw [store_cons found]
          cases location with
          | nil => exact absurd List.nil_prefix apart.2
          | cons other location =>
              by_cases same : segment = other
              · subst same
                have apart := Location.apart_cons_iff.mp apart
                simpa [at?, inside?_replace_self found, found] using ih apart inner
              · simp [at?, inside?_replace_of_ne same]

theorem store_of_inside?_eq_none (missing : value.inside? segment = none) (location : Location)
    (stored : Value) : value.store (segment :: location) stored = value := by
  simp [store, missing]

theorem inside?_store_of_ne (different : segment ≠ other) (location : Location)
    (value stored : Value) :
    (value.store (segment :: location) stored).inside? other = value.inside? other := by
  cases found : value.inside? segment with
  | none => rw [store_of_inside?_eq_none found]
  | some inner => rw [store_cons found, inside?_replace_of_ne different]

/-- What is stored at locations apart from each other can be stored in either order. -/
theorem store_store_of_apart {first second : Location} (apart : first.Apart second)
    (value left right : Value) :
    (value.store first left).store second right = (value.store second right).store first left := by
  induction first generalizing value second with
  | nil => exact absurd List.nil_prefix apart.1
  | cons segment first ih =>
      cases second with
      | nil => exact absurd List.nil_prefix apart.2
      | cons other second =>
          by_cases same : segment = other
          · subst same
            have apart := Location.apart_cons_iff.mp apart
            cases found : value.inside? segment with
            | none => simp only [store_of_inside?_eq_none found]
            | some inner =>
                rw [store_cons found, store_cons found, store_cons (inside?_replace_self found _),
                  store_cons (inside?_replace_self found _), replace_replace, replace_replace,
                  ih apart]
          · have onFirst := inside?_store_of_ne (Ne.symm same) second value right
            have onSecond := inside?_store_of_ne same first value left
            cases found : value.inside? segment with
            | none =>
                rw [found] at onFirst
                rw [store_of_inside?_eq_none found, store_of_inside?_eq_none onFirst]
            | some inner =>
                cases found' : value.inside? other with
                | none =>
                    rw [found'] at onSecond
                    rw [store_of_inside?_eq_none found', store_of_inside?_eq_none onSecond]
                | some inner' =>
                    rw [found] at onFirst
                    rw [found'] at onSecond
                    rw [store_cons onFirst, store_cons onSecond, store_cons found,
                      store_cons found', replace_replace_of_ne same found]

end Json.Value

end DocShape
