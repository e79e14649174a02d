import DocShape.Proofs.Equivalence

/-! Values that list the members of their objects in another order, at any depth. To be the
same is to differ in this order and in the form of numbers, and in nothing else. -/

set_option autoImplicit false

namespace DocShape.Json.Value

mutual

/-- The values differ in the order of members at most, and in numbers that are alike. -/
inductive Rearranged (alike : Number → Number → Prop) : Value → Value → Prop where
  | null : Rearranged alike .null .null
  | bool {truth : Bool} : Rearranged alike (.bool truth) (.bool truth)
  | number {left right : Number} (same : alike left right) :
      Rearranged alike (.number left) (.number right)
  | string {text : String} : Rearranged alike (.string text) (.string text)
  | array {items others : List Value} (inside : ItemsRearranged alike items others) :
      Rearranged alike (.array items) (.array others)
  /-- The members of a level are moved about, and then rearranged inside one by one. -/
  | object {members moved others : List (String × Value)} (perm : members.Perm moved)
      (inside : MembersRearranged alike moved others) :
      Rearranged alike (.object members) (.object others)

inductive ItemsRearranged (alike : Number → Number → Prop) : List Value → List Value → Prop where
  | nil : ItemsRearranged alike [] []
  | cons {item other : Value} {items others : List Value} (here : Rearranged alike item other)
      (later : ItemsRearranged alike items others) :
      ItemsRearranged alike (item :: items) (other :: others)

inductive MembersRearranged (alike : Number → Number → Prop) :
    List (String × Value) → List (String × Value) → Prop where
  | nil : MembersRearranged alike [] []
  | cons {name : String} {value other : Value} {members others : List (String × Value)}
      (here : Rearranged alike value other) (later : MembersRearranged alike members others) :
      MembersRearranged alike ((name, value) :: members) ((name, other) :: others)

end

theorem MembersRearranged.names_eq {alike : Number → Number → Prop}
    {members others : List (String × Value)} :
    MembersRearranged alike members others → Entries.names members = Entries.names others
  | .nil => rfl
  | .cons _ later => by rw [Entries.names_cons, Entries.names_cons, later.names_eq]

/-! ## Rearranged values agree -/

section

variable {alike : Number → Number → Prop} {coarser : Number → Number → Bool}

mutual

/-- Objects that repeat no name agree in whatever order they list their members. -/
theorem Rearranged.agree (implied : ∀ left right, alike left right → coarser left right = true)
    {value other : Value} :
    Rearranged alike value other → value.UniqueNames → agree coarser value other = true
  | .null, _ => rfl
  | .bool, _ => by simp [Value.agree]
  | .number same, _ => implied _ _ same
  | .string, _ => by simp [Value.agree]
  | .array inside, unique => by
      rw [Value.agree, agreeItems_iff]
      exact inside.agree implied (uniqueNames_array_iff.mp unique)
  | @Rearranged.object _ members moved others perm inside, unique => by
      obtain ⟨distinct, uniqueInside⟩ := uniqueNames_object_iff.mp unique
      have sameNames : (Entries.names members).Perm (Entries.names others) :=
        inside.names_eq ▸ perm.map Prod.fst
      have uniqueMoved : ∀ name value, (name, value) ∈ moved → value.UniqueNames :=
        fun name value listed => uniqueInside name value (perm.mem_iff.mpr listed)
      refine agree_iff.mpr (.object (by simpa [Entries.names] using sameNames.length_eq) ?_)
      intro name value listed
      obtain ⟨other, found, agrees⟩ :=
        inside.agree implied uniqueMoved name value (perm.mem_iff.mp listed)
      exact ⟨other, Entries.get?_of_mem (sameNames.nodup_iff.mp distinct) found, agrees⟩

theorem ItemsRearranged.agree
    (implied : ∀ left right, alike left right → coarser left right = true)
    {items others : List Value} :
    ItemsRearranged alike items others → (∀ item ∈ items, item.UniqueNames) →
      List.Forall₂ (fun item other => Value.agree coarser item other = true) items others
  | .nil, _ => .nil
  | .cons here later, unique =>
      have ⟨uniqueHere, uniqueLater⟩ := List.forall_mem_cons.mp unique
      .cons (here.agree implied uniqueHere) (later.agree implied uniqueLater)

theorem MembersRearranged.agree
    (implied : ∀ left right, alike left right → coarser left right = true)
    {members others : List (String × Value)} :
    MembersRearranged alike members others →
      (∀ name value, (name, value) ∈ members → value.UniqueNames) →
      ∀ name value, (name, value) ∈ members →
        ∃ other, (name, other) ∈ others ∧ Value.agree coarser value other = true
  | .nil, _, _, _, listed => by simp at listed
  | @MembersRearranged.cons _ key held other _ _ here later, unique, name, value, listed => by
      rcases List.mem_cons.mp listed with same | listed
      · cases same
        exact ⟨other, List.mem_cons_self, here.agree implied (unique _ _ List.mem_cons_self)⟩
      · have uniqueLater := fun name value held => unique name value (List.mem_cons_of_mem _ held)
        obtain ⟨found, member, agrees⟩ := later.agree implied uniqueLater name value listed
        exact ⟨found, List.mem_cons_of_mem _ member, agrees⟩

end

end

/-! ## Values that agree are rearranged -/

theorem itemsRearranged_of_forall₂ {alike : Number → Number → Prop} {items others : List Value}
    (each : List.Forall₂ (Rearranged alike) items others) : ItemsRearranged alike items others := by
  induction each with
  | nil => exact .nil
  | cons here _ ih => exact .cons here ih

/-- Members can be brought into the order of others of the same names. -/
theorem exists_membersRearranged {alike : Number → Number → Prop}
    {members others : List (String × Value)} (distinct : (Entries.names members).Nodup)
    (sameNames : (Entries.names members).Perm (Entries.names others))
    (each : ∀ name value, (name, value) ∈ members →
      ∃ other, Entries.get? name others = some other ∧ Rearranged alike value other) :
    ∃ moved, members.Perm moved ∧ MembersRearranged alike moved others := by
  induction others generalizing members with
  | nil =>
      have none : members = [] := by simpa [Entries.names] using sameNames
      exact ⟨[], none ▸ .refl _, .nil⟩
  | cons head others ih =>
      obtain ⟨name, other⟩ := head
      have known : name ∈ Entries.names members := sameNames.mem_iff.mpr List.mem_cons_self
      obtain ⟨⟨key, value⟩, listed, same⟩ := List.mem_map.mp known
      obtain rfl : key = name := same
      obtain ⟨before, after, rfl⟩ := List.append_of_mem listed
      have front : (before ++ (key, value) :: after).Perm ((key, value) :: (before ++ after)) :=
        List.perm_middle
      have distinctFront := (front.map Prod.fst).nodup_iff.mp distinct
      obtain ⟨fresh, distinctLater⟩ := List.nodup_cons.mp distinctFront
      have sameLater := List.Perm.cons_inv ((front.map Prod.fst).symm.trans sameNames)
      obtain ⟨moved, perm, inside⟩ := ih distinctLater sameLater fun name held later => by
        obtain ⟨found, atName, rearranged⟩ := each name held (front.mem_iff.mpr (.tail _ later))
        have away : key ≠ name := by
          rintro rfl
          exact fresh (List.mem_map.mpr ⟨_, later, rfl⟩)
        rw [Entries.get?, if_neg away] at atName
        exact ⟨found, atName, rearranged⟩
      obtain ⟨found, atKey, rearranged⟩ := each key value listed
      rw [Entries.get?, if_pos rfl] at atKey
      cases atKey
      exact ⟨_, front.trans (perm.cons _), .cons rearranged inside⟩

theorem rearranged_of_agree {alike : Number → Number → Bool} {left right : Value}
    (unique : left.UniqueNames) (agrees : agree alike left right = true) :
    Rearranged (fun left right => alike left right = true) left right := by
  induction left using nestedInduction generalizing right with
  | null =>
      cases agree_iff.mp agrees
      exact .null
  | bool =>
      cases agree_iff.mp agrees
      exact .bool
  | number =>
      cases agree_iff.mp agrees with
      | number same => exact .number same
  | string =>
      cases agree_iff.mp agrees
      exact .string
  | array lefts ih =>
      cases agree_iff.mp agrees with
      | @array _ rights sameLength each =>
          rw [uniqueNames_array_iff] at unique
          refine .array (itemsRearranged_of_forall₂ (List.forall₂_iff_get.mpr ⟨sameLength, ?_⟩))
          intro index bound bound'
          have listed := List.get_mem lefts ⟨index, bound⟩
          exact ih _ listed (unique _ listed) (each index _ _ (List.getElem?_eq_getElem bound)
            (List.getElem?_eq_getElem bound'))
  | object lefts ih =>
      obtain ⟨distinct, uniqueInside⟩ := uniqueNames_object_iff.mp unique
      cases agree_iff.mp agrees with
      | object sameLength each =>
          obtain ⟨moved, perm, inside⟩ :=
            exists_membersRearranged distinct (perm_names_of_agree distinct agrees)
              fun name left listed => by
                obtain ⟨right, found, below⟩ := each name left listed
                exact ⟨right, found, ih name left listed (uniqueInside name left listed) below⟩
          exact .object perm inside

/-- Values that agree by one comparison of numbers agree by every coarser one. -/
theorem agree_mono {finer coarser : Number → Number → Bool}
    (implied : ∀ left right, finer left right = true → coarser left right = true)
    {left right : Value} (agrees : agree finer left right = true) :
    agree coarser left right = true := by
  induction left using nestedInduction generalizing right with
  | null | bool | string =>
      cases agree_iff.mp agrees
      exact agrees
  | number value =>
      cases agree_iff.mp agrees with
      | number same => exact agree_iff.mpr (.number (implied _ _ same))
  | array lefts ih =>
      cases agree_iff.mp agrees with
      | array sameLength each =>
          refine agree_iff.mpr (.array sameLength ?_)
          intro index left right onLeft onRight
          exact ih left (List.mem_of_getElem? onLeft) (each index left right onLeft onRight)
  | object lefts ih =>
      cases agree_iff.mp agrees with
      | object sameLength each =>
          refine agree_iff.mpr (.object sameLength ?_)
          intro name left listed
          obtain ⟨right, found, inside⟩ := each name left listed
          exact ⟨right, found, ih name left listed inside⟩

/-- To be the same is an equivalence of the values whose objects repeat no name. It is to
differ in the order of members and in the form of numbers at most, so values that differ in
the order alone are the same, and so are values that are equal. -/
theorem sameValue_equivalence :
    Equivalence (fun left right : Distinct => left.val.sameValue right.val = true) ∧
    (∀ left right : Value, left.UniqueNames →
      (left.sameValue right = true ↔
        left.Rearranged (fun number other => number.sameNumber other = true) right)) ∧
    (∀ value other : Value, value.UniqueNames → value.Rearranged Eq other →
      value.sameValue other = true) ∧
    (∀ left right : Value, left.equal right = true → left.sameValue right = true) := by
  refine ⟨⟨?reflexive, ?symmetric, ?transitive⟩, ?exactly, ?order, ?equality⟩
  case reflexive =>
    intro value
    exact sameValue_self value.property
  case symmetric =>
    intro left right same
    exact sameValue_symm left.property same
  case transitive =>
    intro left middle right first second
    exact sameValue_trans first second
  case exactly =>
    intro left right unique
    exact ⟨rearranged_of_agree unique, fun same => same.agree (fun _ _ => id) unique⟩
  case order =>
    intro value other unique reordered
    refine reordered.agree ?_ unique
    rintro number _ rfl
    exact Double.same_self _
  case equality =>
    intro left right equal
    exact agree_mono (fun _ _ => Number.sameNumber_of_equal) equal

def tariffZone (limit : Number) : Value :=
  .object [("from", .number (.integer 1)), ("to", .number limit)]

def tariff (limit : Number) : Value :=
  .object [("zones", .array [tariffZone limit, .null]), ("name", .string "day")]

def tariffTurned (limit : Number) : Value :=
  .object [("name", .string "day"),
    ("zones", .array [.object [("to", .number limit), ("from", .number (.integer 1))], .null])]

/-- The limit of a zone may be written `5` or `5.0`, which are not equal, and before or behind
where the zone begins. -/
theorem sameValue_tariff :
    let whole := tariff (.integer 5)
    let written := tariff (.float (.ofInt 5))
    let turned := tariffTurned (.float (.ofInt 5))
    whole.UniqueNames ∧ written.UniqueNames ∧ turned.UniqueNames ∧
      written.Rearranged Eq turned ∧ turned.equal written = true ∧
      whole.equal written = false ∧
      whole.sameValue written = true ∧ written.sameValue turned = true ∧
      whole.sameValue turned = true ∧ turned.sameValue whole = true ∧
      turned.sameValue written = true := by
  intro whole written turned
  have uniqueWhole : whole.UniqueNames := by decide
  have uniqueWritten : written.UniqueNames := by decide
  have uniqueTurned : turned.UniqueNames := by decide
  have reordered : written.Rearranged Eq turned :=
    .object (.swap _ _ _) (.cons .string (.cons (.array (.cons (.object (.swap _ _ _)
      (.cons (.number rfl) (.cons (.number rfl) .nil))) (.cons .null .nil))) .nil))
  have renumbered : whole.Rearranged (fun number other => number.sameNumber other = true) written :=
    .object (.refl _) (.cons (.array (.cons (.object (.refl _)
      (.cons (.number (Double.same_self _)) (.cons (.number (Double.same_self _)) .nil)))
      (.cons .null .nil))) (.cons .string .nil))
  have equal : turned.equal written = true := by
    simp [turned, written, tariffTurned, tariff, tariffZone, Value.equal, agree, agreeItems,
      agreeMembers, Entries.get?, Number.equal]
  have unequal : whole.equal written = false := by
    simp [whole, written, tariff, tariffZone, Value.equal, agree, agreeItems, agreeMembers,
      Entries.get?, Number.equal]
  obtain ⟨equivalence, exactly, overlooks, coarser⟩ := sameValue_equivalence
  have first := (exactly whole written uniqueWhole).mpr renumbered
  have second := overlooks written turned uniqueWritten reordered
  have third : whole.sameValue turned = true :=
    @Equivalence.trans _ _ equivalence ⟨whole, uniqueWhole⟩ ⟨written, uniqueWritten⟩
      ⟨turned, uniqueTurned⟩ first second
  have fourth : turned.sameValue whole = true :=
    @Equivalence.symm _ _ equivalence ⟨whole, uniqueWhole⟩ ⟨turned, uniqueTurned⟩ third
  exact ⟨uniqueWhole, uniqueWritten, uniqueTurned, reordered, equal, unequal, first, second,
    third, fourth, coarser turned written equal⟩

end DocShape.Json.Value
