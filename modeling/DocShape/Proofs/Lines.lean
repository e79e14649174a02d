import Mathlib.Data.List.Basic
import DocShape.Command.Response

/-! Written values are free of line breaks, whatever strings they hold, so that
a response takes up one line. -/

set_option autoImplicit false

namespace DocShape

open Json (Value Number Double Decimal)

namespace Text

def Unbroken (text : String) : Prop :=
  '\n' ∉ text.toList

/-- A line holds a line break at its end and nowhere else. -/
def IsLine (text : String) : Prop :=
  ∃ body, text = body ++ "\n" ∧ Unbroken body

private theorem unbroken_append {left right : String} :
    Unbroken (left ++ right) ↔ Unbroken left ∧ Unbroken right := by
  simp [Unbroken]

theorem Unbroken.append {left right : String} (first : Unbroken left) (second : Unbroken right) :
    Unbroken (left ++ right) :=
  unbroken_append.mpr ⟨first, second⟩

private theorem unbroken_ofList {chars : List Char} :
    Unbroken (String.ofList chars) ↔ '\n' ∉ chars := by
  simp [Unbroken]

/-! ## Numbers -/

theorem not_mem_toDigits (number : Nat) : '\n' ∉ Nat.toDigits 10 number := by
  intro member
  have isDigit := Nat.isDigit_of_mem_toDigits (by decide) (by decide) member
  exact absurd isDigit (by decide)

private theorem unbroken_repr (number : Nat) : Unbroken number.repr := by
  rw [Nat.repr_eq_ofList_toDigits, unbroken_ofList]
  exact not_mem_toDigits number

private theorem unbroken_toString_int (number : Int) : Unbroken (toString number) := by
  rw [Int.toString_eq_repr, Int.repr_eq_if]
  split
  · exact unbroken_repr _
  · exact Unbroken.append (by simp [Unbroken]) (unbroken_repr _)

private theorem unbroken_zeros (count : Nat) : Unbroken (Double.zeros count) := by
  simp [Double.zeros, unbroken_ofList]

private theorem unbroken_positional {digits : List Char} (clean : '\n' ∉ digits) (whole : Nat) :
    Unbroken (Double.Layout.positional digits whole) := by
  unfold Double.Layout.positional
  split
  · exact ((unbroken_ofList.mpr clean).append (unbroken_zeros _)).append (by simp [Unbroken])
  · have before : '\n' ∉ digits.take whole := fun member => clean (List.mem_of_mem_take member)
    have behind : '\n' ∉ digits.drop whole := fun member => clean (List.mem_of_mem_drop member)
    exact ((unbroken_ofList.mpr before).append (by simp [Unbroken])).append
      (unbroken_ofList.mpr behind)

private theorem unbroken_scientific {digits : List Char} (clean : '\n' ∉ digits) (exponent : Int) :
    Unbroken (Double.Layout.scientific digits exponent) := by
  have first : '\n' ∉ digits.take 1 := fun member => clean (List.mem_of_mem_take member)
  have behind : '\n' ∉ digits.drop 1 := fun member => clean (List.mem_of_mem_drop member)
  have point : Unbroken
      (if (digits.drop 1).isEmpty then "" else "." ++ String.ofList (digits.drop 1)) := by
    split
    · simp [Unbroken]
    · exact Unbroken.append (by simp [Unbroken]) (unbroken_ofList.mpr behind)
  have sign : Unbroken (if exponent < 0 then "-" else "+") := by
    split <;> simp [Unbroken]
  exact ((((unbroken_ofList.mpr first).append point).append (by simp [Unbroken])).append
    sign).append (unbroken_repr _)

private theorem unbroken_layout (layout : Double.Layout) (decimal : Decimal) :
    Unbroken (layout.write decimal) := by
  have clean : '\n' ∉
      ((Nat.toDigits 10 decimal.digits).reverse.dropWhile (· == '0')).reverse := by
    intro member
    have kept := List.dropWhile_subset _ (List.mem_reverse.mp member)
    exact not_mem_toDigits decimal.digits (List.mem_reverse.mp kept)
  simp only [Double.Layout.write]
  split
  · exact unbroken_scientific clean _
  · split
    · exact unbroken_positional clean _
    · exact (Unbroken.append (by simp [Unbroken]) (unbroken_zeros _)).append
        (unbroken_ofList.mpr clean)

private theorem unbroken_number (number : Number) : Unbroken number.write := by
  cases number with
  | integer value => exact unbroken_toString_int value
  | float value =>
      have sign : Unbroken (if value.negative then "-" else "") := by
        split <;> simp [Unbroken]
      simp only [Number.write, Double.write]
      split
      · exact sign.append (by simp [Unbroken])
      · exact sign.append (unbroken_layout _ _)

/-! ## Strings -/

theorem hexDigit_ne_newline {digit : Nat} (bound : digit < 16) : Json.hexDigit digit ≠ '\n' := by
  have each : ∀ digit < 16, Json.hexDigit digit ≠ '\n' := by decide
  exact each digit bound

private theorem not_mem_escapeChar (char : Char) : '\n' ∉ Json.escapeChar char := by
  by_cases newline : char = '\n'
  · subst newline
    decide
  · have high : char.toNat < 32 → '\n' ≠ Json.hexDigit (char.toNat / 16) :=
      fun control => (hexDigit_ne_newline (by omega)).symm
    have low : char.toNat < 32 → '\n' ≠ Json.hexDigit (char.toNat % 16) :=
      fun _ => (hexDigit_ne_newline (Nat.mod_lt _ (by decide))).symm
    have other : '\n' ≠ char := Ne.symm newline
    rw [Json.escapeChar]
    split_ifs <;> simp_all

private theorem unbroken_quote (text : String) : Unbroken (Json.quote text) := by
  rw [Json.quote, unbroken_ofList]
  simp [not_mem_escapeChar]

/-! ## Values -/

mutual

private theorem unbroken_value : (value : Value) → Unbroken value.write
  | .null => by simp [Value.write, Unbroken]
  | .bool truth => by cases truth <;> simp [Value.write, Unbroken]
  | .number value => by
      rw [Value.write]
      exact unbroken_number value
  | .string text => by
      rw [Value.write]
      exact unbroken_quote text
  | .array items => by
      rw [Value.write]
      exact (Unbroken.append (by simp [Unbroken]) (unbroken_items items)).append
        (by simp [Unbroken])
  | .object members => by
      rw [Value.write]
      exact (Unbroken.append (by simp [Unbroken]) (unbroken_members members)).append
        (by simp [Unbroken])

private theorem unbroken_items : (items : List Value) → Unbroken (Value.writeItems items)
  | [] => by simp [Value.writeItems, Unbroken]
  | [item] => by
      rw [Value.writeItems]
      exact unbroken_value item
  | item :: next :: rest => by
      rw [Value.writeItems]
      · exact ((unbroken_value item).append (by simp [Unbroken])).append
          (unbroken_items (next :: rest))
      · simp

private theorem unbroken_members : (members : List (String × Value)) →
    Unbroken (Value.writeMembers members)
  | [] => by simp [Value.writeMembers, Unbroken]
  | [(name, value)] => by
      rw [Value.writeMembers]
      exact ((unbroken_quote name).append (by simp [Unbroken])).append (unbroken_value value)
  | (name, value) :: next :: rest => by
      rw [Value.writeMembers]
      · exact ((((unbroken_quote name).append (by simp [Unbroken])).append
          (unbroken_value value)).append (by simp [Unbroken])).append
          (unbroken_members (next :: rest))
      · simp

end

end Text

theorem Command.Response.isLine_line (response : Command.Response) :
    Text.IsLine response.line :=
  ⟨response.toValue.write, rfl, Text.unbroken_value response.toValue⟩

end DocShape
