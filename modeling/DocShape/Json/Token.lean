import DocShape.Json.Fault

/-!
# Tokens of JSON text

White space, words, numbers and strings. A reader returns what it has read
together with the rest of the text.
-/

set_option autoImplicit false

namespace DocShape.Json

abbrev Reading (α : Type) : Type :=
  Except Stop α

/-! ## White space -/

def isSpace (char : Char) : Bool :=
  char = ' ' || char = '\n' || char = '\t' || char = '\r'

/-- The first character that is not white space, and what follows it. -/
def next? (text : List Char) : Option (Char × List Char) :=
  match text.dropWhile isSpace with
  | [] => none
  | char :: rest => some (char, rest)

/-! ## Words -/

def readWord : (word text : List Char) → Reading (List Char)
  | [], text => .ok text
  | _ :: _, [] => .error (.past .unfinishedValue [])
  | expected :: word, char :: rest =>
      if char = expected then readWord word rest
      else .error (.past .expectedWord (char :: rest))

/-! ## Digits -/

def isDigit (char : Char) : Bool :=
  decide ('0' ≤ char ∧ char ≤ '9')

def digitValue (char : Char) : Nat :=
  char.toNat - '0'.toNat

def startsWithDigit : List Char → Bool
  | [] => false
  | char :: _ => isDigit char

def skipDigits (text : List Char) : List Char :=
  text.dropWhile isDigit

/-- A number made of digits, how many of them were read, and what follows. -/
structure Digits where
  value : Nat
  count : Nat
  rest : List Char

/-- Appends digits to a number until the text or the bound ends them. -/
def readDigits (bound value : Nat) : List Char → Digits
  | [] => { value, count := 0, rest := [] }
  | char :: text =>
      let longer := 10 * value + digitValue char
      if isDigit char && decide (longer < bound) then
        let digits := readDigits bound longer text
        { digits with count := digits.count + 1 }
      else { value, count := 0, rest := char :: text }

/-! ## Numbers -/

/-- Significands are collected in 64 bits; later digits only move the point. -/
def significandBound : Nat := Nat.pow 2 64

/-- Exponents are collected in 31 bits. -/
def exponentBound : Nat := Nat.pow 2 31

/-- Whether the text starts with a minus sign, and what is behind the sign. -/
def readSign : List Char → Bool × List Char
  | '+' :: rest => (false, rest)
  | '-' :: rest => (true, rest)
  | text => (false, text)

inductive Exponent where
  | places (count : Int)
  | overlong (negative : Bool)

def readExponent (text : List Char) : Reading (Exponent × List Char) :=
  let (negative, unsigned) := readSign text
  match unsigned with
  | [] => .error (.past .unfinishedValue [])
  | char :: rest =>
      if isDigit char then
        let digits := readDigits exponentBound 0 (char :: rest)
        if startsWithDigit digits.rest then .ok (.overlong negative, digits.rest)
        else
          .ok (.places (if negative then -(digits.value : Int) else digits.value), digits.rest)
      else .error (.past .invalidNumber (char :: rest))

def finishFloat (negative : Bool) (decimal : Decimal) (rest : List Char) :
    Reading (Number × List Char) :=
  match Double.ofDecimal? negative decimal with
  | some value => .ok (.float value, rest)
  | none => .error (.before .numberTooLarge rest)

def startsExponent : List Char → Bool
  | [] => false
  | char :: _ => char = 'e' || char = 'E'

/-- A float from its significand, with the exponent that follows if there is
one. An overlong exponent makes the number zero or too large. -/
def readFloat (negative : Bool) (decimal : Decimal) (text : List Char) :
    Reading (Number × List Char) :=
  if startsExponent text then do
    match ← readExponent (text.drop 1) with
    | (.places count, rest) =>
        finishFloat negative { decimal with exponent := decimal.exponent + count } rest
    | (.overlong shrinks, rest) =>
        if decimal.digits ≠ 0 && !shrinks then .error (.past .numberTooLarge rest)
        else finishFloat negative { digits := 0, exponent := 0 } (skipDigits rest)
  else finishFloat negative decimal text

def readFraction (negative : Bool) (whole : Decimal) (text : List Char) :
    Reading (Number × List Char) :=
  let digits := readDigits significandBound whole.digits text
  if digits.count = 0 && !startsWithDigit digits.rest then
    match digits.rest with
    | [] => .error (.past .unfinishedValue [])
    | rest => .error (.past .invalidNumber rest)
  else
    readFloat negative { digits := digits.value, exponent := whole.exponent - digits.count }
      (skipDigits digits.rest)

/-- The least integer that fits 64 bits is `-leastMagnitude`. -/
def leastMagnitude : Nat := Nat.pow 2 63

/-- A literal without point and exponent is an integer if it fits 64 bits, with
a sign bit where it is negative. There is no integer negative zero. -/
def wholeNumber (negative : Bool) (significand : Nat) : Number :=
  if negative then
    if significand = 0 || leastMagnitude < significand then
      .float { Double.ofInt significand with negative := true }
    else .integer (-(significand : Int))
  else .integer significand

/-- The number whose first digit stands before the text. Digits that do not fit
the significand count as places before the point. -/
def readMagnitude (negative : Bool) (first : Char) (text : List Char) :
    Reading (Number × List Char) :=
  let digits := readDigits significandBound (digitValue first) text
  let tail := skipDigits digits.rest
  let dropped := digits.rest.length - tail.length
  let whole : Decimal := { digits := digits.value, exponent := dropped }
  match tail with
  | '.' :: fraction => readFraction negative whole fraction
  | other =>
      if dropped = 0 && !startsExponent other then
        .ok (wholeNumber negative digits.value, other)
      else readFloat negative whole other

def readNumberFrom (negative : Bool) (first : Char) (text : List Char) :
    Reading (Number × List Char) :=
  if !isDigit first then .error (.past .invalidNumber (first :: text))
  else if first = '0' && startsWithDigit text then .error (.past .invalidNumber text)
  else readMagnitude negative first text

def readNumber (negative : Bool) : List Char → Reading (Number × List Char)
  | [] => .error (.past .unfinishedValue [])
  | first :: rest => readNumberFrom negative first rest

/-! ## Escapes -/

def hexValue? (char : Char) : Option Nat :=
  if isDigit char then some (char.toNat - '0'.toNat)
  else if 'a' ≤ char ∧ char ≤ 'f' then some (char.toNat - 'a'.toNat + 10)
  else if 'A' ≤ char ∧ char ≤ 'F' then some (char.toNat - 'A'.toNat + 10)
  else none

def hexUnit? (first second third fourth : Char) : Option Nat := do
  let first ← hexValue? first
  let second ← hexValue? second
  let third ← hexValue? third
  let fourth ← hexValue? fourth
  return ((first * 16 + second) * 16 + third) * 16 + fourth

/-- Four bytes were needed for hexadecimal digits, and have been taken if they
were there. -/
def refuseHex (text : List Char) : Stop :=
  if byteCount text < 4 then { cause := .unfinishedString, unread := 0 }
  else { cause := .invalidEscape, unread := byteCount text - 4 }

def readHex : List Char → Reading (Nat × List Char)
  | first :: second :: third :: fourth :: rest =>
      match hexUnit? first second third fourth with
      | some unit => .ok (unit, rest)
      | none => .error (refuseHex (first :: second :: third :: fourth :: rest))
  | text => .error (refuseHex text)

def isHighSurrogate (unit : Nat) : Bool :=
  decide (0xd800 ≤ unit ∧ unit < 0xdc00)

def isLowSurrogate (unit : Nat) : Bool :=
  decide (0xdc00 ≤ unit ∧ unit < 0xe000)

def joinSurrogates (high low : Nat) : Char :=
  Char.ofNat (0x10000 + (high - 0xd800) * 0x400 + (low - 0xdc00))

def readLowSurrogate : List Char → Reading (Nat × List Char)
  | [] => .error (.past .unfinishedString [])
  | '\\' :: [] => .error (.past .unfinishedString [])
  | '\\' :: 'u' :: digits => do
      let (unit, rest) ← readHex digits
      if isLowSurrogate unit then .ok (unit, rest) else .error (.before .loneSurrogate rest)
  | '\\' :: other => .error (.past .unpairedSurrogate other)
  | other => .error (.past .unpairedSurrogate other)

def readCodePoint (text : List Char) : Reading (Char × List Char) := do
  let (unit, rest) ← readHex text
  if isLowSurrogate unit then .error (.before .loneSurrogate rest)
  else if isHighSurrogate unit then
    let (low, behind) ← readLowSurrogate rest
    return (joinSurrogates unit low, behind)
  else return (Char.ofNat unit, rest)

def simpleEscape? (char : Char) : Option Char :=
  if char = '"' || char = '\\' || char = '/' then some char
  else if char = 'b' then some '\x08'
  else if char = 'f' then some '\x0c'
  else if char = 'n' then some '\n'
  else if char = 'r' then some '\r'
  else if char = 't' then some '\t'
  else none

def readEscape : List Char → Reading (Char × List Char)
  | [] => .error (.past .unfinishedString [])
  | char :: rest =>
      match simpleEscape? char with
      | some meaning => .ok (meaning, rest)
      | none =>
          if char = 'u' then readCodePoint rest
          else .error (.past .invalidEscape (char :: rest))

theorem length_le_of_readHex {text rest : List Char} {unit : Nat}
    (taken : readHex text = .ok (unit, rest)) : rest.length ≤ text.length := by
  unfold readHex at taken
  split at taken
  · split at taken
    · cases taken
      simp only [List.length_cons]
      omega
    · cases taken
  · cases taken

theorem length_le_of_readLowSurrogate {text rest : List Char} {unit : Nat}
    (taken : readLowSurrogate text = .ok (unit, rest)) : rest.length ≤ text.length := by
  unfold readLowSurrogate at taken
  split at taken
  · cases taken
  · cases taken
  · rename_i digits
    cases hex : readHex digits with
    | error => simp [hex, bind, Except.bind] at taken
    | ok found =>
        obtain ⟨found, behind⟩ := found
        simp only [hex, bind, Except.bind] at taken
        split at taken
        · cases taken
          have := length_le_of_readHex hex
          simp only [List.length_cons]
          omega
        · cases taken
  · cases taken
  · cases taken

theorem length_le_of_readCodePoint {text rest : List Char} {char : Char}
    (taken : readCodePoint text = .ok (char, rest)) : rest.length ≤ text.length := by
  unfold readCodePoint at taken
  cases hex : readHex text with
  | error => simp [hex, bind, Except.bind] at taken
  | ok found =>
      obtain ⟨unit, behind⟩ := found
      have shorter := length_le_of_readHex hex
      simp only [hex, bind, Except.bind] at taken
      split at taken
      · cases taken
      · split at taken
        · cases second : readLowSurrogate behind with
          | error => simp [second] at taken
          | ok found =>
              obtain ⟨low, after⟩ := found
              have := length_le_of_readLowSurrogate second
              simp only [second, pure, Except.pure, Except.ok.injEq, Prod.mk.injEq] at taken
              obtain ⟨_, rfl⟩ := taken
              omega
        · simp only [pure, Except.pure, Except.ok.injEq, Prod.mk.injEq] at taken
          obtain ⟨_, rfl⟩ := taken
          exact shorter

theorem length_le_of_readEscape {text rest : List Char} {char : Char}
    (taken : readEscape text = .ok (char, rest)) : rest.length ≤ text.length := by
  unfold readEscape at taken
  split at taken
  · cases taken
  · simp only [List.length_cons]
    split at taken
    · cases taken
      omega
    · split at taken
      · have := length_le_of_readCodePoint taken
        omega
      · cases taken

/-! ## Strings -/

def isControl (char : Char) : Bool :=
  decide (char.toNat < 0x20)

def readString : List Char → Reading (List Char × List Char)
  | [] => .error (.past .unfinishedString [])
  | char :: rest =>
      if char = '"' then .ok ([], rest)
      else if char = '\\' then
        match escape : readEscape rest with
        | .error stop => .error stop
        | .ok (meaning, behind) => do
            have := length_le_of_readEscape escape
            let (chars, after) ← readString behind
            return (meaning :: chars, after)
      else if isControl char then .error (.past .controlCharacter (char :: rest))
      else do
        let (chars, after) ← readString rest
        return (char :: chars, after)
termination_by text => text.length

end DocShape.Json
