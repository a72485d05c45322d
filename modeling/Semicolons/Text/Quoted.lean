import Semicolons.Unicode.GraphemeExtend
import Semicolons.Unicode.Unprintable

/-!
# Quotations

A quotation shows a text on one line, between two copies of a mark. The mark, the backslash and
the four common control characters are written with a backslash; a character that could not be
seen on its own is written as `\u` with its code point in hexadecimal, between braces; every
other character stands for itself.
-/

namespace Semicolons.Text

/-- The code point of a character in lower case hexadecimal, without leading zeros. -/
def hexadecimal (c : Char) : List Char :=
  Nat.toDigits 16 c.toNat

/-- The voicing marks of the halfwidth kana. They attach to the character before them as an
    extending mark does, but are letters with a shape of their own. -/
def isHalfwidthVoicing (c : Char) : Bool :=
  c.toNat == 0xff9e || c.toNat == 0xff9f

/-- Whether a character could not be seen on its own. -/
def isUnseen (c : Char) : Bool :=
  Unicode.isUnprintable c || (Unicode.isGraphemeExtend c && !isHalfwidthVoicing c)

/-- A character as it is written inside a quotation between two copies of `mark`. -/
def escaped (mark c : Char) : List Char :=
  if c = '\x00' then ['\\', '0']
  else if c = '\t' then ['\\', 't']
  else if c = '\r' then ['\\', 'r']
  else if c = '\n' then ['\\', 'n']
  else if c = '\\' then ['\\', '\\']
  else if c = mark then ['\\', mark]
  else if isUnseen c then
    ['\\', 'u', '{'] ++ hexadecimal c ++ ['}']
  else [c]

/-- A text between two copies of `mark`, with every character escaped that needs it. -/
def quotation (mark : Char) (text : List Char) : List Char :=
  mark :: text.flatMap (escaped mark) ++ [mark]

/-- A character between apostrophes. -/
def quotedChar (c : Char) : String :=
  String.ofList (quotation '\'' [c])

/-- A text between double quotation marks. -/
def quotedString (text : String) : String :=
  String.ofList (quotation '"' text.toList)

end Semicolons.Text
