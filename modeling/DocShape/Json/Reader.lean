import DocShape.Json.Token

/-!
# Reading JSON text

The whole text must be one value. Containers may be nested 127 deep, and a
repeated name keeps its first place and takes the last value.
-/

set_option autoImplicit false

namespace DocShape.Json

/-! ## The parts of a container -/

/-- A container closes, or has a further part that begins at the rest. -/
inductive Next where
  | closed (rest : List Char)
  | more (rest : List Char)

/-- Looks for the next item of an array, behind its bracket or an item. -/
def nextItem (first : Bool) (text : List Char) : Reading Next :=
  match next? text with
  | none => .error (.past .unfinishedArray [])
  | some (char, rest) =>
      if char = ']' then .ok (.closed rest)
      else if first then .ok (.more text)
      else if char = ',' then
        match next? rest with
        | none => .error (.past .unfinishedValue [])
        | some (following, behind) =>
            if following = ']' then .error (.past .trailingComma (following :: behind))
            else .ok (.more rest)
      else .error (.past .expectedArrayEnd (char :: rest))

/-- Looks for the next member of an object, behind its brace or a member. A
further member begins behind the quotation mark of its name. -/
def nextName (first : Bool) (text : List Char) : Reading Next :=
  match next? text with
  | none => .error (.past .unfinishedObject [])
  | some (char, rest) =>
      if char = '\x7d' then .ok (.closed rest)
      else if first then
        if char = '"' then .ok (.more rest) else .error (.past .expectedName (char :: rest))
      else if char = ',' then
        match next? rest with
        | none => .error (.past .unfinishedValue [])
        | some (following, behind) =>
            if following = '"' then .ok (.more behind)
            else if following = '\x7d' then
              .error (.past .trailingComma (following :: behind))
            else .error (.past .expectedName (following :: behind))
      else .error (.past .expectedObjectEnd (char :: rest))

def readColon (text : List Char) : Reading (List Char) :=
  match next? text with
  | none => .error (.past .unfinishedObject [])
  | some (char, rest) =>
      if char = ':' then .ok rest else .error (.past .expectedColon (char :: rest))

/-- Takes in the parts of a container one after another, up to its end. The
budget bounds how often the next part is looked for. -/
def foldParts {α : Type} (next : Bool → List Char → Reading Next)
    (part : α → List Char → Reading (α × List Char)) :
    (budget : Nat) → (first : Bool) → α → List Char → Reading (α × List Char)
  | 0, _, _, _ => .error (.past .unfinishedValue [])
  | budget + 1, first, found, text => do
      match ← next first text with
      | .closed rest => return (found, rest)
      | .more rest =>
          let (found, behind) ← part found rest
          foldParts next part budget false found behind

/-- Takes in the parts of the container that was opened before the text. Every
part takes a character at least, so the length of the text is budget enough. -/
def readParts {α : Type} (next : Bool → List Char → Reading Next)
    (part : α → List Char → Reading (α × List Char)) (initial : α) (text : List Char) :
    Reading (α × List Char) :=
  foldParts next part (text.length + 1) true initial text

/-! ## Values -/

def word (text : String) : List Char :=
  text.toList

/-- A value, where the reader of containers is given the opening bracket and
what follows it. -/
def readValueWith (container : Char → List Char → Reading (Value × List Char))
    (text : List Char) : Reading (Value × List Char) :=
  match next? text with
  | none => .error (.past .unfinishedValue [])
  | some (char, rest) =>
      if char = 'n' then do
        return (.null, ← readWord (word "ull") rest)
      else if char = 't' then do
        return (.bool true, ← readWord (word "rue") rest)
      else if char = 'f' then do
        return (.bool false, ← readWord (word "alse") rest)
      else if char = '-' then do
        let (number, behind) ← readNumber true rest
        return (.number number, behind)
      else if isDigit char then do
        let (number, behind) ← readNumberFrom false char rest
        return (.number number, behind)
      else if char = '"' then do
        let (chars, behind) ← readString rest
        return (.string (String.ofList chars), behind)
      else if char = '[' || char = '\x7b' then container char rest
      else .error (.past .expectedValue (char :: rest))

/-- Puts the item that begins at the text before those already read. -/
def readItem (value : List Char → Reading (Value × List Char)) (items : List Value)
    (text : List Char) : Reading (List Value × List Char) := do
  let (item, behind) ← value text
  return (item :: items, behind)

/-- Inserts the member whose name begins at the text. -/
def readMember (value : List Char → Reading (Value × List Char))
    (members : List (String × Value)) (text : List Char) :
    Reading (List (String × Value) × List Char) := do
  let (name, behindName) ← readString text
  let behindColon ← readColon behindName
  let (item, behind) ← value behindColon
  return (Entries.insert (String.ofList name) item members, behind)

/-- A container behind its opening bracket. -/
def readContainer (value : List Char → Reading (Value × List Char)) (opening : Char)
    (text : List Char) : Reading (Value × List Char) :=
  if opening = '[' then do
    let (items, behind) ← readParts nextItem (readItem value) [] text
    return (.array items.reverse, behind)
  else do
    let (members, behind) ← readParts nextName (readMember value) [] text
    return (.object members, behind)

/-- A value, at most `depth` containers deep. -/
def readValue : (depth : Nat) → List Char → Reading (Value × List Char)
  | 0 => readValueWith fun opening rest => .error (.past .nestedTooDeep (opening :: rest))
  | depth + 1 => readValueWith (readContainer (readValue depth))

/-- How deep containers may be nested. -/
def nestingLimit : Nat := 127

/-- Nothing but white space may follow. -/
def expectEnd (text : List Char) : Reading Unit :=
  match next? text with
  | none => .ok ()
  | some (char, rest) => .error (.past .trailingText (char :: rest))

/-- Reads the whole of a text. -/
def readWhole {α : Type} (reader : List Char → Reading (α × List Char)) (text : String) :
    Except Fault α :=
  let chars := text.toList
  let reading : Reading α := do
    let (found, rest) ← reader chars
    expectEnd rest
    return found
  reading.mapError (·.toFault chars)

namespace Value

def read (text : String) : Except Fault Value :=
  readWhole (readValue nestingLimit) text

end Value

end DocShape.Json
