import Mathlib.Data.List.Forall2
import DocShape.Proofs.Location

/-! Values that are the same up to the form of numbers and the order of names.
Putting a same value in the place of another keeps a document the same. -/

set_option autoImplicit false

namespace DocShape.Json.Value

variable {alike : Number → Number → Bool}

theorem agreeItems_iff {lefts rights : List Value} :
    agreeItems alike lefts rights = true ↔
      List.Forall₂ (fun left right => agree alike left right = true) lefts rights := by
  induction lefts generalizing rights with
  | nil => cases rights <;> simp [agreeItems]
  | cons left lefts ih => cases rights <;> simp [agreeItems, ih]

theorem agreeMembers_iff {lefts rights : List (String × Value)} :
    agreeMembers alike lefts rights = true ↔
      ∀ name left, (name, left) ∈ lefts →
        ∃ right, Entries.get? name rights = some right ∧ agree alike left right = true := by
  induction lefts with
  | nil => simp [agreeMembers]
  | cons head lefts ih =>
      obtain ⟨name, left⟩ := head
      simp only [agreeMembers, Bool.and_eq_true, ih]
      constructor
      · rintro ⟨here, later⟩ key held listed
        rcases List.mem_cons.mp listed with same | listed
        · cases same
          cases found : Entries.get? name rights with
          | none => simp [found] at here
          | some right => exact ⟨right, rfl, by simpa [found] using here⟩
        · exact later key held listed
      · intro each
        obtain ⟨right, found, agrees⟩ := each name left List.mem_cons_self
        refine ⟨by simpa [found] using agrees, ?_⟩
        intro key held listed
        exact each key held (List.mem_cons_of_mem _ listed)

mutual

theorem agree_self (reflexive : ∀ number, alike number number = true) :
    (value : Value) → value.UniqueNames → agree alike value value = true
  | .null, _ => rfl
  | .bool truth, _ => by simp [agree]
  | .number value, _ => reflexive value
  | .string text, _ => by simp [agree]
  | .array items, unique => by
      simp only [agree, agreeItems_iff]
      exact agreeItems_self reflexive items unique
  | .object members, unique => by
      simp only [agree, BEq.rfl, Bool.true_and, agreeMembers_iff]
      intro name value listed
      exact ⟨value, Entries.get?_of_mem unique.1 listed,
        agreeMembers_self reflexive members unique.2 name value listed⟩

theorem agreeItems_self (reflexive : ∀ number, alike number number = true) :
    (items : List Value) → UniqueNamesItems items →
      List.Forall₂ (fun left right => agree alike left right = true) items items
  | [], _ => .nil
  | item :: items, unique =>
      .cons (agree_self reflexive item unique.1) (agreeItems_self reflexive items unique.2)

theorem agreeMembers_self (reflexive : ∀ number, alike number number = true) :
    (members : List (String × Value)) → UniqueNamesMembers members →
      ∀ name value, (name, value) ∈ members → agree alike value value = true
  | [], _, _, _, listed => by simp at listed
  | (key, held) :: members, unique, name, value, listed => by
      rcases List.mem_cons.mp listed with same | listed
      · cases same
        exact agree_self reflexive held unique.1
      · exact agreeMembers_self reflexive members unique.2 name value listed

end

theorem sameValue_self {value : Value} (unique : value.UniqueNames) :
    value.sameValue value = true :=
  agree_self (fun _ => Double.same_self _) value unique

private theorem inside?_both {value original inside kept : Value} {segment : Segment}
    (found : value.inside? segment = some inside)
    (present : original.inside? segment = some kept) :
    (∃ members others name, value = .object members ∧ original = .object others ∧
      segment = .member name ∧ Entries.get? name members = some inside ∧
      Entries.get? name others = some kept) ∨
    (∃ items others index, value = .array items ∧ original = .array others ∧
      segment = .item index ∧ items[index]? = some inside ∧ others[index]? = some kept) := by
  rcases inside?_cases found with ⟨members, name, rfl, rfl, here⟩ | ⟨items, index, rfl, rfl, here⟩
  · rcases inside?_cases present with ⟨others, _, rfl, equal, there⟩ | ⟨_, _, _, wrong, _⟩
    · cases equal
      exact .inl ⟨members, others, name, rfl, rfl, rfl, here, there⟩
    · cases wrong
  · rcases inside?_cases present with ⟨_, _, _, wrong, _⟩ | ⟨others, _, rfl, equal, there⟩
    · cases wrong
    · cases equal
      exact .inr ⟨items, others, index, rfl, rfl, rfl, here, there⟩

variable {value original inside kept stored : Value} {segment : Segment}

theorem sameValue_inside (same : value.sameValue original = true)
    (found : value.inside? segment = some inside)
    (present : original.inside? segment = some kept) : inside.sameValue kept = true := by
  rcases inside?_both found present with
    ⟨members, others, name, rfl, rfl, rfl, here, there⟩ |
    ⟨items, others, index, rfl, rfl, rfl, here, there⟩
  · simp only [sameValue, agree, Bool.and_eq_true, agreeMembers_iff] at same
    obtain ⟨right, located, agrees⟩ := same.2 name inside (Entries.mem_of_get? here)
    cases there.symm.trans located
    exact agrees
  · simp only [sameValue, agree, agreeItems_iff] at same
    obtain ⟨bound, rfl⟩ := List.getElem?_eq_some_iff.mp here
    obtain ⟨bound', rfl⟩ := List.getElem?_eq_some_iff.mp there
    exact same.get bound bound'

theorem sameValue_replace (same : value.sameValue original = true)
    (found : value.inside? segment = some inside)
    (present : original.inside? segment = some kept) (agrees : stored.sameValue kept = true) :
    (value.replace segment stored).sameValue original = true := by
  rcases inside?_both found present with
    ⟨members, others, name, rfl, rfl, rfl, here, there⟩ |
    ⟨items, others, index, rfl, rfl, rfl, here, there⟩
  · simp only [sameValue, agree, Bool.and_eq_true, agreeMembers_iff] at same
    simp only [replace, sameValue, agree, Bool.and_eq_true, agreeMembers_iff,
      Entries.length_insert_of_get? here]
    refine ⟨same.1, ?_⟩
    intro key held listed
    rcases Entries.mem_of_mem_insert listed with new | old
    · cases new
      exact ⟨kept, there, agrees⟩
    · exact same.2 key held old
  · simp only [sameValue, agree, agreeItems_iff] at same
    simp only [replace, sameValue, agree, agreeItems_iff]
    obtain ⟨bound, rfl⟩ := List.getElem?_eq_some_iff.mp there
    have sameLength : (items.set index stored).length = others.length := by
      rw [List.length_set, same.length_eq]
    refine List.forall₂_of_length_eq_of_get sameLength ?_
    intro place within within'
    rw [List.get_eq_getElem, List.getElem_set]
    split
    · rename_i samePlace
      subst samePlace
      exact agrees
    · exact same.get _ within'

/-- A document stays the same as another when a value is stored that is the same
as the one that the other has at the location. -/
theorem sameValue_store {location : Location}
    (same : value.sameValue original = true) (present : original.at? location = some kept)
    (agrees : stored.sameValue kept = true) :
    (value.store location stored).sameValue original = true := by
  induction location generalizing value original with
  | nil =>
      cases present
      exact agrees
  | cons segment location ih =>
      cases found : value.inside? segment with
      | none => simpa [store, found] using same
      | some inside =>
          simp only [at?, Option.bind_eq_some_iff] at present
          obtain ⟨inner, held, present⟩ := present
          rw [store_cons found]
          have deeper := ih (sameValue_inside same found held) present
          exact sameValue_replace same found held deeper

end DocShape.Json.Value
