import DocShape.Json.Mismatch

/-!
# Faults of JSON text

Why reading stopped, and where. Places count bytes of the UTF-8 form, so a
place may lie within a character.
-/

set_option autoImplicit false

namespace DocShape.Json

inductive Cause where
  | unfinishedValue
  | unfinishedString
  | unfinishedArray
  | unfinishedObject
  | expectedValue
  | expectedWord
  | expectedColon
  | expectedArrayEnd
  | expectedObjectEnd
  | expectedName
  | invalidNumber
  | numberTooLarge
  | invalidEscape
  | controlCharacter
  | unpairedSurrogate
  | loneSurrogate
  | trailingComma
  | trailingText
  | nestedTooDeep
  | mismatch (fault : Mismatch)
deriving DecidableEq

def Cause.message : Cause → String
  | .unfinishedValue => "EOF while parsing a value"
  | .unfinishedString => "EOF while parsing a string"
  | .unfinishedArray => "EOF while parsing a list"
  | .unfinishedObject => "EOF while parsing an object"
  | .expectedValue => "expected value"
  | .expectedWord => "expected ident"
  | .expectedColon => "expected `:`"
  | .expectedArrayEnd => "expected `,` or `]`"
  | .expectedObjectEnd => "expected `,` or `\x7d`"
  | .expectedName => "key must be a string"
  | .invalidNumber => "invalid number"
  | .numberTooLarge => "number out of range"
  | .invalidEscape => "invalid escape"
  | .controlCharacter => "control character (\\u0000-\\u001F) found while parsing a string"
  | .unpairedSurrogate => "unexpected end of hex escape"
  | .loneSurrogate => "lone leading surrogate in hex escape"
  | .trailingComma => "trailing comma"
  | .trailingText => "trailing characters"
  | .nestedTooDeep => "recursion limit exceeded"
  | .mismatch fault => fault.message

/-- Lines count from one. The column is the number of bytes since the last line
break. -/
structure Position where
  line : Nat
  column : Nat
deriving DecidableEq

namespace Position

def start : Position :=
  { line := 1, column := 0 }

/-- The place that many bytes further on in the text. -/
def advance (position : Position) : Nat → List Char → Position
  | _, [] => position
  | bytes, char :: rest =>
      if bytes < char.utf8Size then { position with column := position.column + bytes }
      else if char = '\n' then
        advance { line := position.line + 1, column := 0 } (bytes - char.utf8Size) rest
      else
        advance { position with column := position.column + char.utf8Size }
          (bytes - char.utf8Size) rest

end Position

structure Fault where
  cause : Cause
  position : Position
deriving DecidableEq

def Fault.message (fault : Fault) : String :=
  fault.cause.message ++ " at line " ++ toString fault.position.line ++
    " column " ++ toString fault.position.column

def byteCount (text : List Char) : Nat :=
  text.foldr (fun char count => char.utf8Size + count) 0

/-- Reading stopped with that many bytes still ahead. -/
structure Stop where
  cause : Cause
  unread : Nat
deriving DecidableEq

namespace Stop

/-- Before the first byte of the rest. -/
def before (cause : Cause) (rest : List Char) : Stop :=
  { cause, unread := byteCount rest }

/-- Behind the first byte of the rest, if there is one. -/
def past (cause : Cause) (rest : List Char) : Stop :=
  { cause, unread := byteCount rest - 1 }

def toFault (text : List Char) (stop : Stop) : Fault :=
  { cause := stop.cause
    position := Position.start.advance (byteCount text - stop.unread) text }

end Stop

end DocShape.Json
