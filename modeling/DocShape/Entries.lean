/-!
# Entries in order of insertion

Named items, each name once, in the order in which the names were first
inserted. Objects hold their members this way and schemas their fields.
-/

set_option autoImplicit false

namespace DocShape

abbrev Entries (α : Type) := List (String × α)

namespace Entries

variable {α : Type}

def names (entries : Entries α) : List String :=
  entries.map Prod.fst

def get? (name : String) : Entries α → Option α
  | [] => none
  | (key, item) :: rest => if key = name then some item else get? name rest

def contains (name : String) (entries : Entries α) : Bool :=
  (get? name entries).isSome

/-- A name that is already present keeps its place and takes the new item; a
new name goes to the end. -/
def insert (name : String) (item : α) : Entries α → Entries α
  | [] => [(name, item)]
  | (key, old) :: rest =>
      if key = name then (key, item) :: rest else (key, old) :: insert name item rest

/-- Inserts the pairs one after another into an empty collection. -/
def ofPairs (pairs : List (String × α)) : Entries α :=
  pairs.foldl (fun entries pair => insert pair.1 pair.2 entries) []

@[simp] theorem get?_nil (name : String) : get? name ([] : Entries α) = none := rfl

theorem get?_insert (name other : String) (item : α) (entries : Entries α) :
    get? other (insert name item entries) =
      if name = other then some item else get? other entries := by
  induction entries with
  | nil => simp [insert, get?]
  | cons head rest ih =>
      obtain ⟨key, old⟩ := head
      by_cases here : key = name
      · subst here
        by_cases same : key = other <;> simp [insert, get?, same]
      · by_cases same : key = other
        · subst same
          simp [insert, get?, here, Ne.symm here]
        · simp [insert, get?, here, same, ih]

theorem names_insert (name : String) (item : α) (entries : Entries α) :
    names (insert name item entries) =
      if name ∈ names entries then names entries else names entries ++ [name] := by
  induction entries with
  | nil => simp [insert, names]
  | cons head rest ih =>
      obtain ⟨key, old⟩ := head
      by_cases here : key = name
      · simp [insert, names, here]
      · have away : name ≠ key := fun equal => here equal.symm
        have step : names (insert name item ((key, old) :: rest)) =
            key :: names (insert name item rest) := by simp [insert, names, here]
        rw [step, ih]
        by_cases later : name ∈ names rest
        · have : name ∈ names ((key, old) :: rest) := List.mem_cons_of_mem _ later
          simp [later, this]
          rfl
        · have : name ∉ names ((key, old) :: rest) := by
            intro member
            rcases List.mem_cons.mp member with equal | member
            · exact away equal
            · exact later member
          simp [later, this]
          rfl

theorem nodup_names_insert {name : String} {item : α} {entries : Entries α}
    (distinct : (names entries).Nodup) : (names (insert name item entries)).Nodup := by
  rw [names_insert]
  split
  · exact distinct
  · rename_i fresh
    rw [List.nodup_append]
    refine ⟨distinct, by simp, ?_⟩
    intro key member other single equal
    rw [List.mem_singleton] at single
    exact fresh (single ▸ equal ▸ member)

end Entries

end DocShape
