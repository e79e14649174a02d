import Mathlib.Data.List.Basic
import Mathlib.Data.List.Induction
import DocShape.Entries

/-! Laws of lookup and replacement. A name that is present keeps its place, so
replacing its item shows only to a lookup of that name. -/

set_option autoImplicit false

namespace DocShape.Entries

variable {α : Type} {name other : String} {item old : α} {entries : Entries α}

@[simp] theorem names_nil : names ([] : Entries α) = [] := rfl

@[simp] theorem names_cons (name : String) (item : α) (entries : Entries α) :
    names ((name, item) :: entries) = name :: names entries := rfl

@[simp] theorem get?_insert_self (name : String) (item : α) (entries : Entries α) :
    get? name (insert name item entries) = some item := by
  simp [get?_insert]

theorem get?_insert_of_ne (different : name ≠ other) (item : α) (entries : Entries α) :
    get? other (insert name item entries) = get? other entries := by
  simp [get?_insert, different]

theorem mem_of_get? (found : get? name entries = some item) : (name, item) ∈ entries := by
  induction entries with
  | nil => simp at found
  | cons head rest ih =>
      obtain ⟨key, held⟩ := head
      by_cases here : key = name
      · subst here
        simp only [get?, ↓reduceIte, Option.some.injEq] at found
        exact found ▸ List.mem_cons_self
      · simp only [get?, here, ↓reduceIte] at found
        exact List.mem_cons_of_mem _ (ih found)

theorem get?_eq_none_iff : get? name entries = none ↔ name ∉ names entries := by
  induction entries with
  | nil => simp
  | cons head rest ih =>
      obtain ⟨key, held⟩ := head
      by_cases here : key = name
      · simp [get?, here]
      · simp [get?, here, Ne.symm here, ih]

theorem contains_iff : contains name entries = true ↔ name ∈ names entries := by
  rw [contains, Option.isSome_iff_ne_none, ne_eq, get?_eq_none_iff, Decidable.not_not]

theorem get?_of_mem (distinct : (names entries).Nodup) (member : (name, item) ∈ entries) :
    get? name entries = some item := by
  induction entries with
  | nil => simp at member
  | cons head rest ih =>
      obtain ⟨key, held⟩ := head
      rw [names_cons, List.nodup_cons] at distinct
      rcases List.mem_cons.mp member with same | later
      · cases same
        simp [get?]
      · have listed : name ∈ names rest := List.mem_map.mpr ⟨_, later, rfl⟩
        have away : key ≠ name := fun same => distinct.1 (same ▸ listed)
        simpa [get?, away] using ih distinct.2 later

theorem insert_of_get? (found : get? name entries = some item) :
    insert name item entries = entries := by
  induction entries with
  | nil => simp at found
  | cons head rest ih =>
      obtain ⟨key, held⟩ := head
      by_cases here : key = name
      · simp only [get?, here, ↓reduceIte, Option.some.injEq] at found
        simp [insert, here, found]
      · simp only [get?, here, ↓reduceIte] at found
        simp [insert, here, ih found]

theorem insert_insert (name : String) (old item : α) (entries : Entries α) :
    insert name item (insert name old entries) = insert name item entries := by
  induction entries with
  | nil => simp [insert]
  | cons head rest ih =>
      obtain ⟨key, held⟩ := head
      by_cases here : key = name <;> simp [insert, here, ih]

/-- Two entries can be replaced in either order. Only where both are new does the order
show. -/
theorem insert_insert_of_ne {held : α} (different : name ≠ other)
    (found : get? name entries = some held) (item old : α) :
    insert other old (insert name item entries) = insert name item (insert other old entries) := by
  induction entries with
  | nil => cases found
  | cons head rest ih =>
      obtain ⟨key, first⟩ := head
      by_cases here : key = name
      · subst here
        simp [insert, different]
      · rw [get?, if_neg here] at found
        by_cases there : key = other
        · subst there
          simp [insert, here]
        · simp [insert, here, there, ih found]

theorem names_insert_of_get? (found : get? name entries = some old) (item : α) :
    names (insert name item entries) = names entries := by
  have present : name ∈ names entries := List.mem_map.mpr ⟨_, mem_of_get? found, rfl⟩
  rw [names_insert, if_pos present]

theorem length_insert_of_get? (found : get? name entries = some old) (item : α) :
    (insert name item entries).length = entries.length := by
  have sameNames := congrArg List.length (names_insert_of_get? found item)
  simpa [names] using sameNames

theorem mem_of_mem_insert {key : String} {held : α}
    (member : (key, held) ∈ insert name item entries) :
    (key, held) = (name, item) ∨ (key, held) ∈ entries := by
  induction entries with
  | nil => exact .inl (List.mem_singleton.mp member)
  | cons head rest ih =>
      obtain ⟨first, old⟩ := head
      simp only [insert] at member
      split at member
      · rename_i here
        rcases List.mem_cons.mp member with same | later
        · exact .inl (here ▸ same)
        · exact .inr (List.mem_cons_of_mem _ later)
      · rcases List.mem_cons.mp member with same | later
        · exact .inr (same ▸ List.mem_cons_self)
        · exact (ih later).imp_right (List.mem_cons_of_mem _)

theorem insert_of_not_mem (fresh : name ∉ names entries) (item : α) :
    insert name item entries = entries ++ [(name, item)] := by
  induction entries with
  | nil => rfl
  | cons head rest ih =>
      obtain ⟨key, held⟩ := head
      rw [names_cons, List.mem_cons, not_or] at fresh
      simp [insert, Ne.symm fresh.1, ih fresh.2]

theorem insert_of_mem_names (distinct : (names entries).Nodup) (present : name ∈ names entries)
    (item : α) : insert name item entries =
      entries.map fun entry => if entry.1 = name then (name, item) else entry := by
  induction entries with
  | nil => simp at present
  | cons head rest ih =>
      obtain ⟨key, held⟩ := head
      obtain ⟨fresh, distinctLater⟩ := List.nodup_cons.mp distinct
      by_cases here : key = name
      · subst here
        have others : ∀ entry ∈ rest, entry.1 ≠ key := by
          rintro entry listed rfl
          exact fresh (List.mem_map.mpr ⟨entry, listed, rfl⟩)
        have kept : rest.map (fun entry => if entry.1 = key then (key, item) else entry) = rest :=
          (List.map_congr_left fun entry listed => if_neg (others entry listed)).trans
            (List.map_id rest)
        simp [insert, kept]
      · have later : name ∈ names rest := by
          simpa [Ne.symm here] using present
        simp [insert, here, ih distinctLater later]

theorem insert_ne_nil (name : String) (item : α) (entries : Entries α) :
    insert name item entries ≠ [] := by
  cases entries with
  | nil => simp [insert]
  | cons head rest =>
      simp only [insert]
      split <;> simp

/-! ## Changing and dropping entries -/

/-- Goes through the entries in order and changes or drops each. -/
def revise (change : String → α → Option α) (entries : Entries α) : Entries α :=
  entries.filterMap fun entry => (change entry.1 entry.2).map fun item => (entry.1, item)

section

variable {change : String → α → Option α}

theorem revise_cons (key : String) (held : α) (rest : Entries α) :
    revise change ((key, held) :: rest) =
      match change key held with
      | some item => (key, item) :: revise change rest
      | none => revise change rest := by
  rw [revise, List.filterMap_cons]
  cases change key held <;> rfl

/-- What is dropped does not come to light again, unless a name is repeated. -/
theorem get?_revise (sole : (names entries).Nodup ∨ ∀ held, change name held ≠ none) :
    get? name (revise change entries) = (get? name entries).bind (change name) := by
  induction entries with
  | nil => rfl
  | cons head rest ih =>
      obtain ⟨key, held⟩ := head
      have later := ih (sole.imp_left fun distinct => (List.nodup_cons.mp distinct).2)
      rw [revise_cons]
      by_cases here : key = name
      · subst here
        rw [get?, if_pos rfl, Option.bind_some]
        cases changed : change key held with
        | some item => rw [get?, if_pos rfl]
        | none =>
            have distinct := sole.resolve_right fun always => always held changed
            rw [later, get?_eq_none_iff.mpr (List.nodup_cons.mp distinct).1]
            rfl
      · rw [get?, if_neg here, ← later]
        cases change key held with
        | some item => rw [get?, if_neg here]
        | none => rfl

/-- An entry that is kept is revised in its place. -/
theorem revise_insert {changed : α} (keeps : change name item = some changed)
    (kept : ∀ held, get? name entries = some held → change name held ≠ none) :
    revise change (insert name item entries) = insert name changed (revise change entries) := by
  induction entries with
  | nil => simp [insert, revise, keeps]
  | cons head rest ih =>
      obtain ⟨key, held⟩ := head
      by_cases here : key = name
      · subst here
        obtain ⟨before, keptHere⟩ := Option.ne_none_iff_exists'.mp (kept held (if_pos rfl))
        rw [insert, if_pos rfl, revise_cons, revise_cons, keeps, keptHere, insert, if_pos rfl]
      · have others : ∀ held, get? name rest = some held → change name held ≠ none := by
          intro held found
          apply kept held
          rw [get?, if_neg here, found]
        rw [insert, if_neg here, revise_cons, revise_cons, ih others]
        cases change key held with
        | some kept => rw [insert, if_neg here]
        | none => rfl

end

/-! ## Inserting one after another -/

theorem ofPairs_append (pairs : List (String × α)) (name : String) (item : α) :
    ofPairs (pairs ++ [(name, item)]) = insert name item (ofPairs pairs) := by
  simp [ofPairs]

theorem mem_of_mem_ofPairs {pair : String × α} {pairs : List (String × α)}
    (member : pair ∈ ofPairs pairs) : pair ∈ pairs := by
  induction pairs using List.reverseRecOn with
  | nil => exact member
  | append_singleton pairs last ih =>
      rw [ofPairs_append] at member
      rcases mem_of_mem_insert member with same | earlier
      · exact List.mem_append_right _ (List.mem_singleton.mpr same)
      · exact List.mem_append_left _ (ih earlier)

theorem names_ofPairs (pairs : List (String × α)) :
    names (ofPairs pairs) = (names pairs).eraseDups := by
  induction pairs using List.reverseRecOn with
  | nil => rfl
  | append_singleton pairs last ih =>
      have known : last.1 ∈ names (ofPairs pairs) ↔ last.1 ∈ names pairs := by
        rw [ih, List.mem_eraseDups]
      have listed : names (pairs ++ [last]) = names pairs ++ [last.1] := by simp [names]
      rw [ofPairs_append, names_insert, listed, List.eraseDups_append, ih]
      split
      · rename_i present
        have repeated : last.1 ∈ names pairs := known.mp (ih ▸ present)
        simp [List.removeAll, repeated]
      · rename_i absent
        have fresh : last.1 ∉ names pairs := fun present => absent (ih ▸ known.mpr present)
        simp [List.removeAll, fresh, List.eraseDups_cons]

theorem nodup_names_ofPairs (pairs : List (String × α)) : (names (ofPairs pairs)).Nodup := by
  induction pairs using List.reverseRecOn with
  | nil => exact List.nodup_nil
  | append_singleton pairs last ih =>
      rw [ofPairs_append]
      exact nodup_names_insert ih

theorem get?_append (name : String) (first second : Entries α) :
    get? name (first ++ second) = (get? name first).or (get? name second) := by
  induction first with
  | nil => rfl
  | cons head rest ih =>
      obtain ⟨key, held⟩ := head
      by_cases here : key = name <;> simp [get?, here, ih]

theorem get?_map {β : Type} (change : α → β) (name : String) (entries : Entries α) :
    get? name (entries.map fun entry => (entry.1, change entry.2)) =
      (get? name entries).map change := by
  induction entries with
  | nil => rfl
  | cons head rest ih =>
      obtain ⟨key, held⟩ := head
      by_cases here : key = name <;> simp [get?, here, ih]

/-- The item that the pairs give last to a name. -/
def last? (name : String) (pairs : List (String × α)) : Option α :=
  get? name pairs.reverse

theorem last?_append (name : String) (first second : List (String × α)) :
    last? name (first ++ second) = (last? name second).or (last? name first) := by
  rw [last?, List.reverse_append, get?_append]
  rfl

theorem last?_eq_none_iff {pairs : List (String × α)} :
    last? name pairs = none ↔ name ∉ names pairs := by
  simp [last?, get?_eq_none_iff, names]

theorem get?_ofPairs (name : String) (pairs : List (String × α)) :
    get? name (ofPairs pairs) = last? name pairs := by
  induction pairs using List.reverseRecOn with
  | nil => rfl
  | append_singleton pairs last ih =>
      obtain ⟨key, item⟩ := last
      rw [ofPairs_append, get?_insert, last?_append, ih]
      by_cases here : key = name <;> simp [last?, get?, here]

theorem ofPairs_ne_nil {pairs : List (String × α)} (inhabited : pairs ≠ []) :
    ofPairs pairs ≠ [] := by
  induction pairs using List.reverseRecOn with
  | nil => exact absurd rfl inhabited
  | append_singleton pairs last _ =>
      rw [ofPairs_append]
      exact insert_ne_nil _ _ _

theorem foldl_insert_of_disjoint {pairs : Entries α} (distinct : (names pairs).Nodup)
    (apart : (names entries).Disjoint (names pairs)) :
    pairs.foldl (fun held pair => insert pair.1 pair.2 held) entries = entries ++ pairs := by
  induction pairs generalizing entries with
  | nil => simp
  | cons head rest ih =>
      obtain ⟨name, item⟩ := head
      rw [names_cons, List.nodup_cons] at distinct
      rw [names_cons, List.disjoint_cons_right] at apart
      have later : (names (entries ++ [(name, item)])).Disjoint (names rest) := by
        rw [names, List.map_append, List.disjoint_append_left]
        exact ⟨apart.2, by simpa using distinct.1⟩
      rw [List.foldl_cons, insert_of_not_mem apart.1, ih distinct.2 later, List.append_assoc,
        List.singleton_append]

theorem ofPairs_of_nodup {pairs : List (String × α)} (distinct : (names pairs).Nodup) :
    ofPairs pairs = pairs :=
  foldl_insert_of_disjoint distinct (List.disjoint_nil_left _)

end DocShape.Entries
