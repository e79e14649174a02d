import Mathlib.Data.List.DropRight
import DocShape.Json.Writer
import DocShape.Proofs.JsonText

/-!
# Written values are JSON text

The writer keeps to the grammar, for every integer and every finite number:
decimals are written without a leading zero, and never without a digit. Strings
are read back as they were.
-/

set_option autoImplicit false

namespace DocShape.Json

/-! ## Digits -/

theorem allDigits_append {left right : List Char} :
    AllDigits (left ++ right) ↔ AllDigits left ∧ AllDigits right := by
  simp [AllDigits, or_imp, forall_and]

private theorem allDigits_replicate (count : Nat) : AllDigits (List.replicate count '0') := by
  intro char member
  rw [List.eq_of_mem_replicate member]
  decide

private theorem allDigits_toDigits (number : Nat) : AllDigits (Nat.toDigits 10 number) := by
  intro char member
  simpa [isDigit, Char.isDigit, Char.le_def] using
    Nat.isDigit_of_mem_toDigits (by decide) (by decide) member

private theorem isFraction_of_digits {digits : List Char} (all : AllDigits digits)
    (nonempty : digits ≠ []) : IsFraction ('.' :: digits) := by
  cases digits with
  | nil => exact absurd rfl nonempty
  | cons first digits =>
      obtain ⟨digit, others⟩ := List.forall_mem_cons.mp all
      exact .digits digit others

private theorem isFraction_zero : IsFraction ['.', '0'] :=
  isFraction_of_digits (allDigits_replicate 1) (by simp)

/-- The digits of a positive number. -/
structure IsSignificant (digits : List Char) : Prop where
  all : AllDigits digits
  nonempty : digits ≠ []
  nonzero : digits.head? ≠ some '0'

namespace IsSignificant

variable {digits : List Char}

private theorem isWhole (form : IsSignificant digits) : IsWhole digits := by
  obtain ⟨all, nonempty, nonzero⟩ := form
  cases digits with
  | nil => exact absurd rfl nonempty
  | cons first digits =>
      obtain ⟨digit, others⟩ := List.forall_mem_cons.mp all
      exact .digits digit (by simpa using nonzero) others

theorem append (form : IsSignificant digits) {others : List Char} (all : AllDigits others) :
    IsSignificant (digits ++ others) where
  all := allDigits_append.mpr ⟨form.all, all⟩
  nonempty := List.append_ne_nil_of_left_ne_nil form.nonempty _
  nonzero := by
    rw [List.head?_append_of_ne_nil _ form.nonempty]
    exact form.nonzero

private theorem of_prefix (form : IsSignificant digits) {initial : List Char}
    (cut : initial <+: digits)
    (nonempty : initial ≠ []) : IsSignificant initial := by
  obtain ⟨others, rfl⟩ := cut
  refine ⟨(allDigits_append.mp form.all).1, nonempty, ?_⟩
  have nonzero := form.nonzero
  rwa [List.head?_append_of_ne_nil _ nonempty] at nonzero

/-- The digits that are left without the zeros at the end. -/
theorem strip (form : IsSignificant digits) : IsSignificant (digits.rdropWhile (· == '0')) := by
  refine form.of_prefix (List.rdropWhile_prefix _ _) fun empty => ?_
  have zeros := List.rdropWhile_eq_nil_iff.mp empty
  have first := zeros _ (List.head_mem form.nonempty)
  exact form.nonzero (by simpa [List.head?_eq_some_head form.nonempty] using first)

end IsSignificant

private theorem isSignificant_toDigits (number : Nat) (positive : 0 < number) :
    IsSignificant (Nat.toDigits 10 number) := by
  induction number using Nat.strong_induction_on with
  | _ number ih =>
      by_cases small : number < 10
      · have each : ∀ digit < 10, 0 < digit → digit.digitChar ≠ '0' := by decide
        have all := allDigits_toDigits number
        rw [Nat.toDigits_of_lt_base small] at all ⊢
        exact ⟨all, by simp, by simpa using each number small positive⟩
      · have last := allDigits_toDigits (number % 10)
        rw [Nat.toDigits_of_lt_base (Nat.mod_lt _ (by decide))] at last
        rw [Nat.toDigits_of_base_le (by decide) (by omega)]
        exact (ih (number / 10) (by omega) (by omega)).append last

/-! ## Integers -/

theorem isMagnitude_repr (number : Nat) : IsMagnitude number.repr.toList := by
  have whole : IsWhole (Nat.toDigits 10 number) := by
    cases number with
    | zero => exact .zero
    | succ number => exact (isSignificant_toDigits (number + 1) (by omega)).isWhole
  rw [Nat.repr_eq_ofList_toDigits, String.toList_ofList]
  simpa using IsMagnitude.parts whole .none .none

private theorem isNumber_toString_int (number : Int) : IsNumber (toString number).toList := by
  rw [Int.toString_eq_repr, Int.repr_eq_if]
  split
  · exact .unsigned (isMagnitude_repr _)
  · rw [String.toList_append]
    exact .negative (isMagnitude_repr _)

private theorem isExponent_repr {sign : List Char}
    (signed : sign = [] ∨ sign = ['+'] ∨ sign = ['-'])
    (number : Nat) : IsExponent ('e' :: (sign ++ number.repr.toList)) := by
  rw [Nat.repr_eq_ofList_toDigits, String.toList_ofList]
  have all := allDigits_toDigits number
  cases digits : Nat.toDigits 10 number with
  | nil => exact absurd digits Nat.toDigits_ne_nil
  | cons first others =>
      rw [digits] at all
      obtain ⟨digit, others⟩ := List.forall_mem_cons.mp all
      exact .digits (.inl rfl) signed digit others

/-! ## Decimals -/

namespace Double

private theorem isMagnitude_positional {digits : List Char} (form : IsSignificant digits)
    {whole : Nat}
    (positive : 0 < whole) : IsMagnitude (Layout.positional digits whole).toList := by
  unfold Layout.positional
  split
  · have padded := form.append (allDigits_replicate (whole - digits.length))
    simpa [zeros] using IsMagnitude.parts padded.isWhole isFraction_zero .none
  · rename_i longer
    have before : IsSignificant (digits.take whole) :=
      form.of_prefix (List.take_prefix _ _) (by simp [form.nonempty]; omega)
    have fraction : IsFraction ('.' :: digits.drop whole) :=
      isFraction_of_digits (fun char member => form.all char (List.mem_of_mem_drop member))
        (by simpa using longer)
    simpa using IsMagnitude.parts before.isWhole fraction .none

private theorem isMagnitude_scientific {digits : List Char} (form : IsSignificant digits)
    (exponent : Int) : IsMagnitude (Layout.scientific digits exponent).toList := by
  have first : IsSignificant (digits.take 1) :=
    form.of_prefix (List.take_prefix _ _) (by simp [form.nonempty])
  have fraction : IsFraction (if (digits.drop 1).isEmpty then ""
      else "." ++ String.ofList (digits.drop 1)).toList := by
    split
    · exact .none
    · rename_i filled
      have fraction : IsFraction ('.' :: digits.drop 1) :=
        isFraction_of_digits (fun char member => form.all char (List.mem_of_mem_drop member))
          (by simpa using filled)
      simpa using fraction
  have scaled : IsExponent ('e' :: ((if exponent < 0 then "-" else "+").toList ++
      exponent.natAbs.repr.toList)) := by
    have signed : (if exponent < 0 then "-" else "+").toList = [] ∨
        (if exponent < 0 then "-" else "+").toList = ['+'] ∨
        (if exponent < 0 then "-" else "+").toList = ['-'] := by
      split <;> simp
    exact isExponent_repr signed _
  simpa [Layout.scientific] using IsMagnitude.parts first.isWhole fraction scaled

private theorem isMagnitude_layout (layout : Layout) {decimal : Decimal}
    (positive : 0 < decimal.digits) :
    IsMagnitude (layout.write decimal).toList := by
  have form : IsSignificant
      ((Nat.toDigits 10 decimal.digits).reverse.dropWhile (· == '0')).reverse :=
    (isSignificant_toDigits decimal.digits positive).strip
  simp only [Layout.write]
  split
  · exact isMagnitude_scientific form _
  · split
    · exact isMagnitude_positional form (by omega)
    · rename_i places _
      have fraction := isFraction_of_digits
        (allDigits_append.mpr ⟨allDigits_replicate places, form.all⟩)
        (List.append_ne_nil_of_right_ne_nil _ form.nonempty)
      simpa [zeros] using IsMagnitude.parts .zero fraction .none

/-! Zero lies in no rounding interval of a positive magnitude, so that a shortest
decimal has a digit. -/

theorem RoundingInterval.pos_of_gridPoint? {interval : RoundingInterval} {spacing point : Nat}
    (lower : 0 < interval.lower) (upper : 0 < interval.upper)
    (found : interval.gridPoint? spacing = some point) : 0 < point := by
  have outside : interval.holds 0 = false := by
    simp [holds, Nat.ne_of_lt lower, Nat.ne_of_lt upper]
  have below : interval.holds (interval.middle / spacing * spacing) = true →
      0 < interval.middle / spacing := by
    intro held
    refine Nat.pos_of_ne_zero fun zero => ?_
    rw [zero, Nat.zero_mul, outside] at held
    exact absurd held (by decide)
  simp only [gridPoint?] at found
  split at found
  · cases found
  · rename_i held _
    cases found
    exact below held
  · cases found
    exact Nat.succ_pos _
  · rename_i held _
    have positive := below held
    split_ifs at found <;> cases found <;> omega

private theorem roundingInterval_pos {rank : Nat} (positive : 0 < rank) :
    0 < (roundingInterval rank).lower ∧ 0 < (roundingInterval rank).upper := by
  have gap : 0 < Nat.pow 2 (binade rank) := Nat.pow_pos (by decide)
  have counted : Nat.pow 2 (binade rank) ≤ units rank := by
    have size : 0 < Nat.pow 2 52 := by decide
    have whole := Nat.div_mul_le_self rank (Nat.pow 2 52)
    refine Nat.le_mul_of_pos_left _ ?_
    rw [binade, Nat.sub_mul, Nat.one_mul]
    generalize rank / Nat.pow 2 52 * Nat.pow 2 52 = start at whole ⊢
    omega
  simp only [roundingInterval]
  split_ifs <;> omega

private theorem pos_of_decimalOfLength? {rank count : Nat} {decimal : Decimal} (positive : 0 < rank)
    (found : decimalOfLength? rank count = some decimal) : 0 < decimal.digits := by
  obtain ⟨lower, upper⟩ := roundingInterval_pos positive
  simp only [decimalOfLength?, Option.map_eq_some_iff] at found
  obtain ⟨digits, found, rfl⟩ := found
  split at found
  · exact RoundingInterval.pos_of_gridPoint? lower upper found
  · rename_i places _
    have scale : 0 < Nat.pow 10 (places + 1) := Nat.pow_pos (by decide)
    exact RoundingInterval.pos_of_gridPoint? (Nat.mul_pos lower scale) (Nat.mul_pos upper scale)
      found

private theorem isMagnitude_shortestDecimal {rank : Nat} (positive : 0 < rank) :
    IsMagnitude (jsonLayout.write (shortestDecimal rank)).toList := by
  unfold shortestDecimal
  cases found : (List.range longestDecimal).findSome? fun count =>
      decimalOfLength? rank (count + 1) with
  | none =>
      -- Where no count of digits were enough, the number would be written as zero.
      have written : jsonLayout.write { digits := 0, exponent := 0 } = "0.0" := by rfl
      rw [Option.getD_none, written]
      exact .parts .zero isFraction_zero .none
  | some decimal =>
      obtain ⟨count, _, found⟩ := List.exists_of_findSome?_eq_some found
      exact isMagnitude_layout jsonLayout (pos_of_decimalOfLength? positive found)

end Double

private theorem isNumber_write (number : Number) : IsNumber number.write.toList := by
  cases number with
  | integer value => exact isNumber_toString_int value
  | float value =>
      have magnitude : IsMagnitude (if value.rank = 0 then "0.0"
          else Double.jsonLayout.write (Double.shortestDecimal value.rank)).toList := by
        split
        · exact .parts .zero isFraction_zero .none
        · rename_i nonzero
          exact Double.isMagnitude_shortestDecimal (Nat.pos_of_ne_zero nonzero)
      have written : (Number.float value).write = (if value.negative then "-" else "") ++
          (if value.rank = 0 then "0.0"
            else Double.jsonLayout.write (Double.shortestDecimal value.rank)) := by
        simp only [Number.write, Double.write]
        split <;> rfl
      rw [written, String.toList_append]
      cases value.negative with
      | false => exact .unsigned magnitude
      | true => exact .negative magnitude

/-! ## Strings -/

/-- The ways to write a character of a string. -/
inductive Escaped (char : Char) : List Char → Prop where
  | plain : char ≠ '"' → char ≠ '\\' → isControl char = false → Escaped char [char]
  | simple {letter : Char} : simpleEscape? letter = some char → Escaped char ['\\', letter]
  | unicode {first second third fourth : Char} :
      hexUnit? first second third fourth = some char.toNat → char.toNat < 32 →
      Escaped char ['\\', 'u', first, second, third, fourth]

private theorem hexUnit?_hexDigit (unit : Nat) (bound : unit < 32) :
    hexUnit? '0' '0' (hexDigit (unit / 16)) (hexDigit (unit % 16)) = some unit := by
  have each : ∀ unit < 32,
      hexUnit? '0' '0' (hexDigit (unit / 16)) (hexDigit (unit % 16)) = some unit := by decide
  exact each unit bound

private theorem escaped_escapeChar (char : Char) : Escaped char (escapeChar char) := by
  unfold escapeChar
  split_ifs with mark slash backspace feed newline ret tab control
  · exact .simple (by rw [mark]; rfl)
  · exact .simple (by rw [slash]; rfl)
  · exact .simple (by rw [backspace]; rfl)
  · exact .simple (by rw [feed]; rfl)
  · exact .simple (by rw [newline]; rfl)
  · exact .simple (by rw [ret]; rfl)
  · exact .simple (by rw [tab]; rfl)
  · exact .unicode (hexUnit?_hexDigit char.toNat control) control
  · exact .plain mark slash (by simpa [isControl] using control)

private theorem isChars_flatMap (chars : List Char) : IsChars (chars.flatMap escapeChar) := by
  induction chars with
  | nil => exact .nil
  | cons char chars ih =>
      have escaped := escaped_escapeChar char
      rw [List.flatMap_cons]
      generalize escapeChar char = text at escaped ⊢
      cases escaped with
      | plain mark slash control => exact .plain mark slash control ih
      | simple meaning => exact .escape (by simp [meaning]) ih
      | unicode value => exact .unicode (by simp [value]) ih

private theorem readString_escape {text behind chars rest : List Char} {char : Char}
    (taken : readEscape text = .ok (char, behind))
    (others : readString behind = .ok (chars, rest)) :
    readString ('\\' :: text) = .ok (char :: chars, rest) := by
  rw [readString, if_neg (by decide), if_pos rfl]
  split <;> simp_all [bind, Except.bind, pure, Except.pure]

private theorem readEscape_unicode {first second third fourth char : Char}
    (value : hexUnit? first second third fourth = some char.toNat) (control : char.toNat < 32)
    (text : List Char) :
    readEscape ('u' :: first :: second :: third :: fourth :: text) = .ok (char, text) := by
  have low : isLowSurrogate char.toNat = false := by simp [isLowSurrogate]; omega
  have high : isHighSurrogate char.toNat = false := by simp [isHighSurrogate]; omega
  simp [readEscape, simpleEscape?, readCodePoint, readHex_of_hexUnit? value, low, high, bind,
    Except.bind, pure, Except.pure]

theorem readString_flatMap (chars rest : List Char) :
    readString (chars.flatMap escapeChar ++ '"' :: rest) = .ok (chars, rest) := by
  induction chars with
  | nil => simp [readString]
  | cons char chars ih =>
      have escaped := escaped_escapeChar char
      rw [List.flatMap_cons, List.append_assoc]
      generalize escapeChar char = text at escaped ⊢
      cases escaped with
      | plain mark slash control =>
          rw [List.singleton_append, readString, if_neg mark, if_neg slash, control,
            if_neg (by simp), ih]
          rfl
      | simple meaning => exact readString_escape (by simp [readEscape, meaning]) ih
      | unicode value control => exact readString_escape (readEscape_unicode value control _) ih

theorem toList_quote (text : String) :
    (quote text).toList = '"' :: (text.toList.flatMap escapeChar ++ ['"']) := by
  simp [quote]

private theorem isMember_quote (name : String) {value : List Char} (form : IsValue value) :
    IsMember ('"' :: (name.toList.flatMap escapeChar ++ '"' :: ':' :: value)) :=
  .named isBlank_nil (isChars_flatMap name.toList) isBlank_nil form.isElement

/-! ## Values -/

mutual

theorem isValue_write : (value : Value) → IsValue value.write.toList
  | .null => by
      rw [Value.write]
      exact .null
  | .bool truth => by
      rw [Value.write]
      exact .bool truth
  | .number number => by
      rw [Value.write]
      exact .number (isNumber_write number)
  | .string text => by
      rw [Value.write, toList_quote]
      exact .string (isChars_flatMap text.toList)
  | .array [] => by
      rw [Value.write, Value.writeItems]
      exact .emptyArray isBlank_nil
  | .array (item :: items) => by
      rw [Value.write]
      simpa using IsValue.array (isItems_writeItems (item :: items) (by simp))
  | .object [] => by
      rw [Value.write, Value.writeMembers]
      exact .emptyObject isBlank_nil
  | .object (member :: members) => by
      rw [Value.write]
      simpa using IsValue.object (isMembers_writeMembers (member :: members) (by simp))

private theorem isItems_writeItems : (items : List Value) → items ≠ [] →
    IsItems (Value.writeItems items).toList
  | [], nonempty => absurd rfl nonempty
  | [item], _ => by
      rw [Value.writeItems]
      exact .last (isValue_write item).isElement
  | item :: next :: items, _ => by
      rw [Value.writeItems]
      · simpa using IsItems.cons (isValue_write item).isElement
          (isItems_writeItems (next :: items) (by simp))
      · simp

private theorem isMembers_writeMembers : (members : List (String × Value)) → members ≠ [] →
    IsMembers (Value.writeMembers members).toList
  | [], nonempty => absurd rfl nonempty
  | [(name, value)], _ => by
      rw [Value.writeMembers]
      simpa [toList_quote] using IsMembers.last (isMember_quote name (isValue_write value))
  | (name, value) :: next :: members, _ => by
      rw [Value.writeMembers]
      · simpa [toList_quote] using IsMembers.cons (isMember_quote name (isValue_write value))
          (isMembers_writeMembers (next :: members) (by simp))
      · simp

end

end DocShape.Json
