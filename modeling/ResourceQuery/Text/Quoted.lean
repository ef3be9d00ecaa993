import ResourceQuery.Text.Printable

/-!
# Quoted text

The one-line quoted form of a text, as it stands in messages. The text goes into single
quotes, or into double quotes if it holds a single quote and no double one. Backslashes and
the chosen quote are written with a backslash before them, line ends and tabs by letter, and
every other character that is not printable by its code point in hexadecimal.

Headlines:
* **`quoteFor`**: which of the two quotes surrounds a text.
* **`quoted`**: the whole form.
-/

namespace ResourceQuery.Text

/-- The quote that surrounds a text: double only if that avoids an escape. -/
def quoteFor (cs : List Char) : Char :=
  if cs.contains '\x27' && !cs.contains '\x22' then '\x22' else '\x27'

/-- The hexadecimal digits of a number, lower case. -/
def hexDigits (n : Nat) : List Char := Nat.toDigits 16 n

/-- The digits of a number in hexadecimal, with zeros in front up to a width. -/
def paddedHex (width n : Nat) : List Char :=
  let digits := hexDigits n
  List.replicate (width - digits.length) '0' ++ digits

/-- The escape of a character by its code point: two, four or eight hexadecimal digits. -/
def codePointEscape (c : Char) : List Char :=
  if c.toNat < 0x100 then '\\' :: 'x' :: paddedHex 2 c.toNat
  else if c.toNat < 0x10000 then '\\' :: 'u' :: paddedHex 4 c.toNat
  else '\\' :: 'U' :: paddedHex 8 c.toNat

/-- How a character is written between quotes. -/
def quotedChar (quote c : Char) : List Char :=
  if c = quote || c = '\\' then ['\\', c]
  else if c = '\n' then ['\\', 'n']
  else if c = '\r' then ['\\', 'r']
  else if c = '\t' then ['\\', 't']
  else if isPrintable c then [c]
  else codePointEscape c

/-- The quoted form of a text. -/
def quoted (s : String) : String :=
  let cs := s.toList
  let quote := quoteFor cs
  String.ofList (quote :: cs.flatMap (quotedChar quote) ++ [quote])

end ResourceQuery.Text
