import DocShape.Text.DefaultIgnorable
import DocShape.Text.GraphemeExtend
import DocShape.Text.Unprintable

/-!
# Quoted text in messages

Text between quotation marks in which every character can be seen: those that
have no printed form of their own stand as their code point.
-/

set_option autoImplicit false

namespace DocShape.Text

/-- The halfwidth katakana sound marks belong to the character before them, but
are letters with a width of their own. -/
def isSpacingSoundMark (char : Char) : Bool :=
  inRanges [(0xff9e, 0xff9f)] char

/-- Whether a character is drawn as nothing, as blank, or onto the character
before it. -/
def isConcealed (char : Char) : Bool :=
  isUnprintable char || isDefaultIgnorable char ||
    (isGraphemeExtend char && !isSpacingSoundMark char)

def codePointEscape (char : Char) : List Char :=
  ['\\', 'u', '\x7b'] ++ Nat.toDigits 16 char.toNat ++ ['\x7d']

def quotedChar (char : Char) : List Char :=
  if char = '\x00' then ['\\', '0']
  else if char = '\t' then ['\\', 't']
  else if char = '\r' then ['\\', 'r']
  else if char = '\n' then ['\\', 'n']
  else if char = '\\' then ['\\', '\\']
  else if char = '"' then ['\\', '"']
  else if isConcealed char then codePointEscape char
  else [char]

def quoted (text : String) : String :=
  String.ofList ('"' :: text.toList.flatMap quotedChar ++ ['"'])

end DocShape.Text
