import Mathlib.Data.List.Perm.Subperm
import Mathlib.Data.Option.Basic
import DocShape.Proofs.SameValue

/-! Being the same is an equivalence of the values whose objects repeat no name.
Values that are the same hold same values inside, and stay the same when same
values are stored at one location of both. -/

set_option autoImplicit false

namespace DocShape.Json.Value

/-- Induction with a hypothesis for each item of an array and each member of an object. -/
@[elab_as_elim]
theorem nestedInduction {motive : Value → Prop} (null : motive .null)
    (bool : ∀ truth, motive (.bool truth)) (number : ∀ value, motive (.number value))
    (string : ∀ text, motive (.string text))
    (array : ∀ items, (∀ item ∈ items, motive item) → motive (.array items))
    (object : ∀ members, (∀ name value, (name, value) ∈ members → motive value) →
      motive (.object members))
    (value : Value) : motive value := by
  cases value with
  | null => exact null
  | bool truth => exact bool truth
  | number value => exact number value
  | string text => exact string text
  | array items =>
      refine array items fun item listed => ?_
      have := List.sizeOf_lt_of_mem listed
      exact nestedInduction null bool number string array object item
  | object members =>
      refine object members fun name value listed => ?_
      have := List.sizeOf_lt_of_mem listed
      have : sizeOf (name, value) = 1 + sizeOf name + sizeOf value := rfl
      exact nestedInduction null bool number string array object value

/-! ## Names that are not repeated -/

theorem uniqueNamesItems_iff {items : List Value} :
    UniqueNamesItems items ↔ ∀ item ∈ items, item.UniqueNames := by
  induction items with
  | nil => simp [UniqueNamesItems]
  | cons item items ih => simp [UniqueNamesItems, ih]

theorem uniqueNamesMembers_iff {members : List (String × Value)} :
    UniqueNamesMembers members ↔ ∀ name value, (name, value) ∈ members → value.UniqueNames := by
  induction members with
  | nil => simp [UniqueNamesMembers]
  | cons head members ih =>
      obtain ⟨key, held⟩ := head
      rw [UniqueNamesMembers, ih]
      constructor
      · rintro ⟨here, later⟩ name value listed
        rcases List.mem_cons.mp listed with same | listed
        · cases same
          exact here
        · exact later name value listed
      · intro each
        refine ⟨each key held List.mem_cons_self, ?_⟩
        intro name value listed
        exact each name value (List.mem_cons_of_mem _ listed)

theorem uniqueNames_array_iff {items : List Value} :
    (array items).UniqueNames ↔ ∀ item ∈ items, item.UniqueNames :=
  uniqueNamesItems_iff

theorem uniqueNames_object_iff {members : List (String × Value)} :
    (object members).UniqueNames ↔
      (Entries.names members).Nodup ∧
        ∀ name value, (name, value) ∈ members → value.UniqueNames := by
  rw [UniqueNames, uniqueNamesMembers_iff]

theorem uniqueNames_inside {value inside : Value} {segment : Segment} (unique : value.UniqueNames)
    (found : value.inside? segment = some inside) : inside.UniqueNames := by
  rcases inside?_cases found with ⟨members, name, rfl, rfl, here⟩ | ⟨items, index, rfl, rfl, here⟩
  · exact (uniqueNames_object_iff.mp unique).2 name inside (Entries.mem_of_get? here)
  · exact uniqueNames_array_iff.mp unique inside (List.mem_of_getElem? here)

theorem uniqueNames_replace {value stored : Value} {segment : Segment}
    (unique : value.UniqueNames) (uniqueStored : stored.UniqueNames) :
    (value.replace segment stored).UniqueNames := by
  cases value with
  | object members =>
      cases segment with
      | item index => exact unique
      | member name =>
          rw [uniqueNames_object_iff] at unique
          rw [replace, uniqueNames_object_iff]
          refine ⟨Entries.nodup_names_insert unique.1, ?_⟩
          intro key held listed
          rcases Entries.mem_of_mem_insert listed with new | old
          · cases new
            exact uniqueStored
          · exact unique.2 key held old
  | array items =>
      cases segment with
      | member name => exact unique
      | item index =>
          rw [uniqueNames_array_iff] at unique
          rw [replace, uniqueNames_array_iff]
          intro item listed
          rcases List.mem_or_eq_of_mem_set listed with old | rfl
          · exact unique item old
          · exact uniqueStored
  | null | bool | number | string => exact unique

theorem uniqueNames_store {value stored : Value} {location : Location}
    (unique : value.UniqueNames) (uniqueStored : stored.UniqueNames) :
    (value.store location stored).UniqueNames := by
  induction location generalizing value with
  | nil => exact uniqueStored
  | cons segment location ih =>
      cases found : value.inside? segment with
      | none => simpa [store, found] using unique
      | some inside =>
          rw [store_cons found]
          exact uniqueNames_replace unique (ih (uniqueNames_inside unique found))

/-! ## Agreement as an equivalence -/

section

variable {alike : Number → Number → Bool}

/-- The ways in which two values agree. -/
inductive Agrees (alike : Number → Number → Bool) : Value → Value → Prop where
  | null : Agrees alike .null .null
  | bool {truth : Bool} : Agrees alike (.bool truth) (.bool truth)
  | number {left right : Number} (same : alike left right = true) :
      Agrees alike (.number left) (.number right)
  | string {text : String} : Agrees alike (.string text) (.string text)
  | array {lefts rights : List Value} (sameLength : lefts.length = rights.length)
      (each : ∀ (index : Nat) (left right : Value), lefts[index]? = some left →
        rights[index]? = some right → agree alike left right = true) :
      Agrees alike (.array lefts) (.array rights)
  | object {lefts rights : List (String × Value)} (sameLength : lefts.length = rights.length)
      (each : ∀ name left, (name, left) ∈ lefts →
        ∃ right, Entries.get? name rights = some right ∧ agree alike left right = true) :
      Agrees alike (.object lefts) (.object rights)

theorem agreeItems_iff_getElem? {lefts rights : List Value} :
    agreeItems alike lefts rights = true ↔
      lefts.length = rights.length ∧ ∀ (index : Nat) (left right : Value),
        lefts[index]? = some left → rights[index]? = some right →
          agree alike left right = true := by
  rw [agreeItems_iff, List.forall₂_iff_get]
  constructor
  · rintro ⟨sameLength, each⟩
    refine ⟨sameLength, ?_⟩
    intro index left right onLeft onRight
    obtain ⟨bound, rfl⟩ := List.getElem?_eq_some_iff.mp onLeft
    obtain ⟨bound', rfl⟩ := List.getElem?_eq_some_iff.mp onRight
    exact each index bound bound'
  · rintro ⟨sameLength, each⟩
    refine ⟨sameLength, ?_⟩
    intro index bound bound'
    exact each index _ _ (List.getElem?_eq_getElem bound) (List.getElem?_eq_getElem bound')

theorem agree_iff {left right : Value} :
    agree alike left right = true ↔ Agrees alike left right := by
  constructor
  · intro agrees
    cases left <;> cases right <;> simp only [agree, Bool.false_eq_true] at agrees
    · exact .null
    · cases eq_of_beq agrees
      exact .bool
    · exact .number agrees
    · cases eq_of_beq agrees
      exact .string
    · obtain ⟨sameLength, each⟩ := agreeItems_iff_getElem?.mp agrees
      exact .array sameLength each
    · obtain ⟨sameLength, each⟩ := (Bool.and_eq_true _ _).mp agrees
      exact .object (eq_of_beq sameLength) (agreeMembers_iff.mp each)
  · intro agrees
    cases agrees with
    | null => rfl
    | bool => simp [agree]
    | number same => simpa [agree] using same
    | string => simp [agree]
    | array sameLength each =>
        rw [agree]
        exact agreeItems_iff_getElem?.mpr ⟨sameLength, each⟩
    | object sameLength each =>
        rw [agree, sameLength, BEq.rfl, Bool.true_and]
        exact agreeMembers_iff.mpr each

theorem perm_names_of_agree {lefts rights : List (String × Value)}
    (distinct : (Entries.names lefts).Nodup)
    (agrees : agree alike (.object lefts) (.object rights) = true) :
    (Entries.names lefts).Perm (Entries.names rights) := by
  cases agree_iff.mp agrees with
  | object sameLength each =>
      have included : Entries.names lefts ⊆ Entries.names rights := by
        intro name member
        obtain ⟨⟨_, left⟩, listed, rfl⟩ := List.mem_map.mp member
        obtain ⟨right, found, -⟩ := each _ left listed
        exact List.mem_map.mpr ⟨_, Entries.mem_of_get? found, rfl⟩
      apply (distinct.subperm included).perm_of_length_le
      simp [Entries.names, sameLength]

theorem agree_symm (symmetric : ∀ left right, alike left right = true → alike right left = true)
    {left right : Value} (unique : left.UniqueNames) (agrees : agree alike left right = true) :
    agree alike right left = true := by
  induction left using nestedInduction generalizing right with
  | null | bool | string =>
      cases agree_iff.mp agrees
      exact agrees
  | number value =>
      cases agree_iff.mp agrees with
      | number same => exact agree_iff.mpr (.number (symmetric _ _ same))
  | array lefts ih =>
      cases agree_iff.mp agrees with
      | @array _ rights sameLength each =>
          rw [uniqueNames_array_iff] at unique
          refine agree_iff.mpr (.array sameLength.symm ?_)
          intro index right left onRight onLeft
          have listed := List.mem_of_getElem? onLeft
          exact ih left listed (unique left listed) (each index left right onLeft onRight)
  | object lefts ih =>
      cases agree_iff.mp agrees with
      | @object _ rights sameLength each =>
          obtain ⟨distinct, uniqueInside⟩ := uniqueNames_object_iff.mp unique
          have perm := perm_names_of_agree distinct agrees
          refine agree_iff.mpr (.object sameLength.symm ?_)
          intro name right listed
          have known : name ∈ Entries.names lefts :=
            perm.mem_iff.mpr (List.mem_map.mpr ⟨_, listed, rfl⟩)
          obtain ⟨⟨_, left⟩, onLeft, rfl⟩ := List.mem_map.mp known
          obtain ⟨other, found, inside⟩ := each _ left onLeft
          have same := Entries.get?_of_mem (perm.nodup_iff.mp distinct) listed
          cases found.symm.trans same
          exact ⟨left, Entries.get?_of_mem distinct onLeft,
            ih _ left onLeft (uniqueInside _ left onLeft) inside⟩

theorem agree_trans (transitive : ∀ left middle right, alike left middle = true →
      alike middle right = true → alike left right = true)
    {left middle right : Value} (first : agree alike left middle = true)
    (second : agree alike middle right = true) : agree alike left right = true := by
  induction left using nestedInduction generalizing middle right with
  | null | bool | string =>
      cases agree_iff.mp first
      exact second
  | number value =>
      cases agree_iff.mp first with
      | number same =>
          cases agree_iff.mp second with
          | number same' => exact agree_iff.mpr (.number (transitive _ _ _ same same'))
  | array lefts ih =>
      cases agree_iff.mp first with
      | @array _ middles sameLength each =>
          cases agree_iff.mp second with
          | array sameLength' each' =>
              refine agree_iff.mpr (.array (sameLength.trans sameLength') ?_)
              intro index left right onLeft onRight
              have bound : index < middles.length :=
                sameLength ▸ (List.getElem?_eq_some_iff.mp onLeft).1
              have between := List.getElem?_eq_getElem bound
              exact ih left (List.mem_of_getElem? onLeft) (each index left _ onLeft between)
                (each' index _ right between onRight)
  | object lefts ih =>
      cases agree_iff.mp first with
      | object sameLength each =>
          cases agree_iff.mp second with
          | object sameLength' each' =>
              refine agree_iff.mpr (.object (sameLength.trans sameLength') ?_)
              intro name left onLeft
              obtain ⟨between, found, agrees⟩ := each name left onLeft
              obtain ⟨right, found', agrees'⟩ := each' name between (Entries.mem_of_get? found)
              exact ⟨right, found', ih name left onLeft agrees agrees'⟩

end

/-! ## Sameness as an equivalence -/

variable {left right : Value}

theorem sameValue_iff : left.sameValue right = true ↔ Agrees Number.sameNumber left right :=
  agree_iff

theorem sameValue_symm (unique : left.UniqueNames) (same : left.sameValue right = true) :
    right.sameValue left = true := by
  refine agree_symm ?_ unique same
  intro number other alike
  exact Double.same_iff.mpr (Double.same_iff.mp alike).symm

theorem sameValue_trans {middle : Value} (first : left.sameValue middle = true)
    (second : middle.sameValue right = true) : left.sameValue right = true := by
  refine agree_trans ?_ first second
  intro number between other alike alike'
  exact Double.same_iff.mpr ((Double.same_iff.mp alike).trans (Double.same_iff.mp alike'))

/-- The same value twice, where no object repeats a name. -/
structure Same (left right : Value) : Prop where
  unique : left.UniqueNames
  unique' : right.UniqueNames
  sameValue : left.sameValue right = true

namespace Same

theorem symm (same : Same left right) : Same right left :=
  ⟨same.unique', same.unique, sameValue_symm same.unique same.sameValue⟩

theorem sameValue_congr {other other' : Value} (same : Same left right)
    (sameOther : Same other other') : left.sameValue other = right.sameValue other' := by
  apply Bool.eq_iff_iff.mpr
  constructor
  · intro onLeft
    exact sameValue_trans same.symm.sameValue (sameValue_trans onLeft sameOther.sameValue)
  · intro onRight
    exact sameValue_trans same.sameValue (sameValue_trans onRight sameOther.symm.sameValue)

theorem isNull_eq (same : Same left right) : left.isNull = right.isNull := by
  cases sameValue_iff.mp same.sameValue <;> rfl

/-! ## What lies inside -/

theorem perm_names {lefts rights : List (String × Value)}
    (same : Same (.object lefts) (.object rights)) :
    (Entries.names lefts).Perm (Entries.names rights) :=
  perm_names_of_agree (uniqueNames_object_iff.mp same.unique).1 same.sameValue

theorem get? {lefts rights : List (String × Value)} (same : Same (.object lefts) (.object rights))
    (name : String) : Option.Rel Same (Entries.get? name lefts) (Entries.get? name rights) := by
  cases onLeft : Entries.get? name lefts with
  | some left =>
      cases sameValue_iff.mp same.sameValue with
      | object _ each =>
          have listed := Entries.mem_of_get? onLeft
          obtain ⟨right, onRight, agrees⟩ := each name left listed
          rw [onRight]
          exact .some ⟨(uniqueNames_object_iff.mp same.unique).2 name left listed,
            (uniqueNames_object_iff.mp same.unique').2 name right (Entries.mem_of_get? onRight),
            agrees⟩
  | none =>
      have onRight : Entries.get? name rights = none := by
        rw [Entries.get?_eq_none_iff, ← same.perm_names.mem_iff]
        exact Entries.get?_eq_none_iff.mp onLeft
      rw [onRight]
      exact .none

theorem items {lefts rights : List Value} (same : Same (.array lefts) (.array rights)) :
    List.Forall₂ Same lefts rights := by
  cases sameValue_iff.mp same.sameValue with
  | array sameLength each =>
      refine List.forall₂_iff_get.mpr ⟨sameLength, ?_⟩
      intro index bound bound'
      exact ⟨uniqueNames_array_iff.mp same.unique _ (List.get_mem _ _),
        uniqueNames_array_iff.mp same.unique' _ (List.get_mem _ _),
        each index _ _ (List.getElem?_eq_getElem bound) (List.getElem?_eq_getElem bound')⟩

theorem getElem? {lefts rights : List Value} (same : Same (.array lefts) (.array rights))
    (index : Nat) : Option.Rel Same lefts[index]? rights[index]? := by
  have each := same.items
  clear same
  induction each generalizing index with
  | nil => exact .none
  | cons here _ ih =>
      cases index with
      | zero => exact .some here
      | succ index => simpa using ih index

theorem inside? (same : Same left right) (segment : Segment) :
    Option.Rel Same (left.inside? segment) (right.inside? segment) := by
  cases sameValue_iff.mp same.sameValue with
  | object =>
      cases segment with
      | member name => exact same.get? name
      | item index => exact .none
  | array =>
      cases segment with
      | member name => exact .none
      | item index => exact same.getElem? index
  | null | bool | number | string => exact .none

/-! ## Storing at one location of both -/

variable {stored stored' : Value}

theorem sameValue_insert {lefts rights : List (String × Value)}
    (same : Same (.object lefts) (.object rights)) (sameStored : stored.sameValue stored' = true)
    (name : String) :
    (object (Entries.insert name stored lefts)).sameValue
      (.object (Entries.insert name stored' rights)) = true := by
  have perm := same.perm_names
  have sameLength : (Entries.names (Entries.insert name stored lefts)).length =
      (Entries.names (Entries.insert name stored' rights)).length := by
    rw [Entries.names_insert, Entries.names_insert]
    simp only [perm.mem_iff]
    split
    · exact perm.length_eq
    · simp [perm.length_eq]
  refine sameValue_iff.mpr (.object (by simpa [Entries.names] using sameLength) ?_)
  intro key left listed
  have distinct := (uniqueNames_object_iff.mp same.unique).1
  have onLeft := Entries.get?_of_mem (Entries.nodup_names_insert distinct) listed
  by_cases here : name = key
  · subst here
    rw [Entries.get?_insert_self] at onLeft
    cases onLeft
    exact ⟨stored', Entries.get?_insert_self _ _ _, sameStored⟩
  · rw [Entries.get?_insert_of_ne here] at onLeft
    rw [Entries.get?_insert_of_ne here]
    cases sameValue_iff.mp same.sameValue with
    | object _ each => exact each key left (Entries.mem_of_get? onLeft)

theorem sameValue_set {lefts rights : List Value} (same : Same (.array lefts) (.array rights))
    (sameStored : stored.sameValue stored' = true) (index : Nat) :
    (array (lefts.set index stored)).sameValue (.array (rights.set index stored')) = true := by
  cases sameValue_iff.mp same.sameValue with
  | array sameLength each =>
      refine sameValue_iff.mpr (.array (by simp [sameLength]) ?_)
      intro place left right onLeft onRight
      by_cases here : index = place
      · subst here
        have bound : index < lefts.length := by
          simpa using (List.getElem?_eq_some_iff.mp onLeft).1
        rw [List.getElem?_set_self bound] at onLeft
        rw [List.getElem?_set_self (sameLength ▸ bound)] at onRight
        cases onLeft
        cases onRight
        exact sameStored
      · rw [List.getElem?_set_ne here] at onLeft onRight
        exact each place left right onLeft onRight

theorem sameValue_replace (same : Same left right) (sameStored : stored.sameValue stored' = true)
    (segment : Segment) :
    (left.replace segment stored).sameValue (right.replace segment stored') = true := by
  cases sameValue_iff.mp same.sameValue with
  | object =>
      cases segment with
      | member name => exact same.sameValue_insert sameStored name
      | item index => exact same.sameValue
  | array =>
      cases segment with
      | member name => exact same.sameValue
      | item index => exact same.sameValue_set sameStored index
  | null | bool | number | string => exact same.sameValue

/-- Values stay the same when same values are stored at one location of both. -/
theorem store (same : Same left right) (sameStored : Same stored stored') (location : Location) :
    Same (left.store location stored) (right.store location stored') := by
  refine ⟨uniqueNames_store same.unique sameStored.unique,
    uniqueNames_store same.unique' sameStored.unique', ?_⟩
  induction location generalizing left right with
  | nil => exact sameStored.sameValue
  | cons segment location ih =>
      have inside := same.inside? segment
      generalize onLeft : left.inside? segment = found at inside
      generalize onRight : right.inside? segment = found' at inside
      cases inside with
      | none => simpa [Value.store, onLeft, onRight] using same.sameValue
      | some sameInner =>
          rw [store_cons onLeft, store_cons onRight]
          exact same.sameValue_replace (ih sameInner) segment

end Same

end DocShape.Json.Value
