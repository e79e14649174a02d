import DocShape.Json.Reader

/-!
# Skipping JSON values

A value whose content does not matter is still checked for its form, but less
closely than one that is kept: numbers of any size and lone surrogates pass,
and containers may be nested to any depth. A reader returns the rest of the
text.
-/

set_option autoImplicit false

namespace DocShape.Json

/-! ## Numbers -/

def skipExponent (text : List Char) : Reading (List Char) :=
  match (readSign text).2 with
  | [] => .error (.past .invalidNumber [])
  | char :: rest =>
      if isDigit char then .ok (skipDigits rest)
      else .error (.past .invalidNumber (char :: rest))

def skipOptionalExponent (text : List Char) : Reading (List Char) :=
  if startsExponent text then skipExponent (text.drop 1) else .ok text

def skipFraction (text : List Char) : Reading (List Char) :=
  if startsWithDigit text then skipOptionalExponent (skipDigits text)
  else .error (.past .invalidNumber text)

def skipPoint : List Char → Reading (List Char)
  | '.' :: rest => skipFraction rest
  | text => skipOptionalExponent text

def skipNumberFrom (first : Char) (text : List Char) : Reading (List Char) :=
  if !isDigit first then .error (.past .invalidNumber (first :: text))
  else if first = '0' then
    if startsWithDigit text then .error (.past .invalidNumber text) else skipPoint text
  else skipPoint (skipDigits text)

def skipNumber : List Char → Reading (List Char)
  | [] => .error (.past .invalidNumber [])
  | first :: rest => skipNumberFrom first rest

/-! ## Strings -/

def skipEscape : List Char → Reading (List Char)
  | [] => .error (.past .unfinishedString [])
  | char :: rest =>
      if (simpleEscape? char).isSome then .ok rest
      else if char = 'u' then do
        let (_, behind) ← readHex rest
        return behind
      else .error (.past .invalidEscape (char :: rest))

theorem length_le_of_skipEscape {text rest : List Char}
    (taken : skipEscape text = .ok rest) : rest.length ≤ text.length := by
  unfold skipEscape at taken
  split at taken
  · cases taken
  · rename_i char behind
    simp only [List.length_cons]
    split at taken
    · cases taken
      omega
    · split at taken
      · cases hex : readHex behind with
        | error => simp [hex, bind, Except.bind] at taken
        | ok found =>
            obtain ⟨unit, after⟩ := found
            have := length_le_of_readHex hex
            simp only [hex, bind, Except.bind] at taken
            cases taken
            omega
      · cases taken

def skipString : List Char → Reading (List Char)
  | [] => .error (.past .unfinishedString [])
  | char :: rest =>
      if char = '"' then .ok rest
      else if char = '\\' then
        match escape : skipEscape rest with
        | .error stop => .error stop
        | .ok behind =>
            have := length_le_of_skipEscape escape
            skipString behind
      else if isControl char then .error (.before .controlCharacter (char :: rest))
      else skipString rest
termination_by text => text.length

/-! ## The parts of a container -/

/-- Looks for the next item of an array. A bracket behind a comma is left to the
reader of the item. -/
def skipToItem (first : Bool) (text : List Char) : Reading Next :=
  match next? text with
  | none => .error (.past .unfinishedArray [])
  | some (char, rest) =>
      if char = ']' then .ok (.closed rest)
      else if first then .ok (.more text)
      else if char = ',' then .ok (.more rest)
      else .error (.past .expectedArrayEnd (char :: rest))

/-- The quotation mark of a name must come next. -/
def skipToName (text : List Char) : Reading Next :=
  match next? text with
  | none => .error (.past .unfinishedObject [])
  | some (char, rest) =>
      if char = '"' then .ok (.more rest) else .error (.past .expectedName (char :: rest))

/-- Looks for the next member of an object, which begins behind the quotation
mark of its name. -/
def skipToMember (first : Bool) (text : List Char) : Reading Next :=
  match next? text with
  | none => .error (.past .unfinishedObject [])
  | some (char, rest) =>
      if char = '\x7d' then .ok (.closed rest)
      else if first then skipToName text
      else if char = ',' then skipToName rest
      else .error (.past .expectedObjectEnd (char :: rest))

/-! ## Values -/

/-- A value, where the reader of containers is given the opening bracket and
what follows it. -/
def skipValueWith (container : Char → List Char → Reading (List Char)) (text : List Char) :
    Reading (List Char) :=
  match next? text with
  | none => .error (.past .unfinishedValue [])
  | some (char, rest) =>
      if char = 'n' then readWord (word "ull") rest
      else if char = 't' then readWord (word "rue") rest
      else if char = 'f' then readWord (word "alse") rest
      else if char = '-' then skipNumber rest
      else if isDigit char then skipNumberFrom char rest
      else if char = '"' then skipString rest
      else if char = '[' || char = '\x7b' then container char rest
      else .error (.past .expectedValue (char :: rest))

def skipItem (value : List Char → Reading (List Char)) (_ : Unit) (text : List Char) :
    Reading (Unit × List Char) := do
  return ((), ← value text)

def skipMember (value : List Char → Reading (List Char)) (_ : Unit) (text : List Char) :
    Reading (Unit × List Char) := do
  let behindName ← skipString text
  let behindColon ← readColon behindName
  return ((), ← value behindColon)

def skipContainer (value : List Char → Reading (List Char)) (opening : Char)
    (text : List Char) : Reading (List Char) := do
  let (_, behind) ←
    if opening = '[' then readParts skipToItem (skipItem value) () text
    else readParts skipToMember (skipMember value) () text
  return behind

/-- A value, at most `depth` containers deep. -/
def skipNested : (depth : Nat) → List Char → Reading (List Char)
  | 0 => skipValueWith fun opening rest => .error (.past .nestedTooDeep (opening :: rest))
  | depth + 1 => skipValueWith (skipContainer (skipNested depth))

/-- A value of any depth: no text nests containers deeper than it is long. -/
def skipValue (text : List Char) : Reading (List Char) :=
  skipNested text.length text

end DocShape.Json
