import DocShape.Json.Skip
import DocShape.Options

/-!
# Options from JSON text

The options are an object, whose other members are skipped, or an array of the
two options in order. What is left out keeps its default. A scalar of the wrong
kind is read to its end before it is refused, a container is refused at its
opening.
-/

set_option autoImplicit false

namespace DocShape.Options

open Json

def expectedOptions : String := "struct ValidateOptions"

def expectedBool : String := "a boolean"

def expectedString : String := "a string"

def mismatched (found : Found) (expected : String) (rest : List Char) : Stop :=
  .before (.mismatch (.kind found expected)) rest

/-- What the value is that begins with the character before the text, and the
rest behind it, or from its opening bracket on. -/
def readFound (first : Char) (text : List Char) : Reading (Found × List Char) :=
  if first = 'n' then do
    return (.null, ← readWord (word "ull") text)
  else if first = 't' then do
    return (.bool true, ← readWord (word "rue") text)
  else if first = 'f' then do
    return (.bool false, ← readWord (word "alse") text)
  else if first = '-' then do
    let (number, rest) ← readNumber true text
    return (.number number, rest)
  else if isDigit first then do
    let (number, rest) ← readNumberFrom false first text
    return (.number number, rest)
  else if first = '"' then do
    let (chars, rest) ← readString text
    return (.string (String.ofList chars), rest)
  else if first = '[' then .ok (.sequence, first :: text)
  else if first = '\x7b' then .ok (.map, first :: text)
  else .error (.past .expectedValue (first :: text))

def refuseValue {α : Type} (expected : String) (first : Char) (text : List Char) :
    Reading α := do
  let (found, rest) ← readFound first text
  .error (mismatched found expected rest)

def readBool (text : List Char) : Reading (Bool × List Char) :=
  match next? text with
  | none => .error (.past .unfinishedValue [])
  | some (char, rest) =>
      if char = 't' then do
        return (true, ← readWord (word "rue") rest)
      else if char = 'f' then do
        return (false, ← readWord (word "alse") rest)
      else refuseValue expectedBool char rest

def readStringOrNull (text : List Char) : Reading (Option String × List Char) :=
  match next? text with
  | none => .error (.past .unfinishedValue [])
  | some (char, rest) =>
      if char = 'n' then do
        return (none, ← readWord (word "ull") rest)
      else if char = '"' then do
        let (chars, behind) ← readString rest
        return (some (String.ofList chars), behind)
      else refuseValue expectedString char rest

/-! ## From an object -/

/-- The options as far as they have been read. -/
structure Partial where
  strict : Option Bool := none
  rootKey : Option (Option String) := none

def Partial.finish (found : Partial) : Options :=
  { strict := found.strict.getD false, rootKey := found.rootKey.getD none }

/-- A member named again is refused behind the white space after its name. A
brace that stands there is passed over, too. -/
def refuseRepeated {α : Type} (name : String) (text : List Char) : Reading α :=
  let rest := match next? text with
    | none => []
    | some (char, rest) => if char = '\x7d' then rest else char :: rest
  .error (.before (.mismatch (.repeatedMember name)) rest)

def readNamed (found : Partial) (name : String) (text : List Char) :
    Reading (Partial × List Char) :=
  if name = "strict" then
    if found.strict.isSome then refuseRepeated name text
    else do
      let (strict, rest) ← readBool (← readColon text)
      return ({ found with strict := some strict }, rest)
  else if name = "root_key" then
    if found.rootKey.isSome then refuseRepeated name text
    else do
      let (rootKey, rest) ← readStringOrNull (← readColon text)
      return ({ found with rootKey := some rootKey }, rest)
  else do
    let rest ← skipValue (← readColon text)
    return (found, rest)

def readOption (found : Partial) (text : List Char) : Reading (Partial × List Char) := do
  let (name, behind) ← readString text
  readNamed found (String.ofList name) behind

def readObject (text : List Char) : Reading (Options × List Char) := do
  let (found, behind) ← readParts nextName readOption {} text
  return (found.finish, behind)

/-! ## From an array -/

/-- The bracket that closes the array must come next. -/
def readArrayEnd (text : List Char) : Reading (List Char) :=
  match next? text with
  | none => .error (.past .unfinishedArray [])
  | some (char, rest) =>
      if char = ']' then .ok rest
      else if char = ',' then
        match next? rest with
        | none => .error (.past .trailingText [])
        | some (following, behind) =>
            .error (.past (if following = ']' then .trailingComma else .trailingText)
              (following :: behind))
      else .error (.past .trailingText (char :: rest))

def readArray (text : List Char) : Reading (Options × List Char) := do
  match ← nextItem true text with
  | .closed rest => return ({}, rest)
  | .more start =>
      let (strict, behind) ← readBool start
      match ← nextItem false behind with
      | .closed rest => return ({ strict }, rest)
      | .more start =>
          let (rootKey, behind) ← readStringOrNull start
          return ({ strict, rootKey }, ← readArrayEnd behind)

/-! ## The whole text -/

def readDocument (text : List Char) : Reading (Options × List Char) :=
  match next? text with
  | none => .error (.past .unfinishedValue [])
  | some (char, rest) =>
      if char = '\x7b' then readObject rest
      else if char = '[' then readArray rest
      else refuseValue expectedOptions char rest

def read (text : String) : Except Fault Options :=
  readWhole readDocument text

end DocShape.Options
