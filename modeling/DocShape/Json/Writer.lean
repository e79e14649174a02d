import DocShape.Json.Value

/-!
# Compact JSON text

One line without white space between tokens. In strings only the quotation
mark, the backslash and the characters below U+0020 are escaped.
-/

set_option autoImplicit false

namespace DocShape.Json

def hexDigit (digit : Nat) : Char :=
  if digit < 10 then Char.ofNat ('0'.toNat + digit) else Char.ofNat ('a'.toNat + (digit - 10))

def escapeChar (char : Char) : List Char :=
  if char = '"' then ['\\', '"']
  else if char = '\\' then ['\\', '\\']
  else if char = '\x08' then ['\\', 'b']
  else if char = '\x0c' then ['\\', 'f']
  else if char = '\n' then ['\\', 'n']
  else if char = '\r' then ['\\', 'r']
  else if char = '\t' then ['\\', 't']
  else if char.toNat < 32 then
    ['\\', 'u', '0', '0', hexDigit (char.toNat / 16), hexDigit (char.toNat % 16)]
  else [char]

def quote (text : String) : String :=
  String.ofList ('"' :: text.toList.flatMap escapeChar ++ ['"'])

namespace Value

mutual

def write : Value → String
  | .null => "null"
  | .bool truth => if truth then "true" else "false"
  | .number value => value.write
  | .string text => quote text
  | .array items => "[" ++ writeItems items ++ "]"
  | .object members => "\x7b" ++ writeMembers members ++ "\x7d"

def writeItems : List Value → String
  | [] => ""
  | [item] => write item
  | item :: items => write item ++ "," ++ writeItems items

def writeMembers : List (String × Value) → String
  | [] => ""
  | [(name, value)] => quote name ++ ":" ++ write value
  | (name, value) :: members =>
      quote name ++ ":" ++ write value ++ "," ++ writeMembers members

end

end Value

end DocShape.Json
