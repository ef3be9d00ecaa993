/-!
# Form encoding

The encoding of a name or a value inside a query string. Letters, digits, `_`, `.`, `-`, `~`
and the square brackets stand for themselves, a space becomes a plus sign, and every other
character becomes the percent escapes of its UTF-8 bytes, in upper case.

Headlines:
* **`encodeChar`**, **`encode`**: the encoding, character by character.
* **`encodePairs`**: the whole query string of a list of name and value pairs.
-/

namespace ResourceQuery.Text.FormEncoding

/-- The characters that stand for themselves. -/
def isKept (c : Char) : Bool :=
  c.isAlphanum || c = '_' || c = '.' || c = '-' || c = '~' || c = '[' || c = ']'

/-- An upper case hexadecimal digit. -/
def hexDigit (n : Nat) : Char :=
  if n < 10 then Char.ofNat (0x30 + n) else Char.ofNat (0x41 + n - 10)

/-- The percent escape of a byte. -/
def escapeByte (b : UInt8) : List Char :=
  ['%', hexDigit (b.toNat / 16), hexDigit (b.toNat % 16)]

/-- The encoded form of a character. -/
def encodeChar (c : Char) : List Char :=
  if c = ' ' then ['+']
  else if isKept c then [c]
  else (String.utf8EncodeChar c).flatMap escapeByte

/-- The encoded form of a text. -/
def encode (cs : List Char) : List Char := cs.flatMap encodeChar

/-- A pair as it stands in the query string. -/
def encodePair (pair : String × String) : List Char :=
  encode pair.1.toList ++ '=' :: encode pair.2.toList

/-- Pairs, each encoded, with an ampersand between neighbours. -/
def encodePairChars : List (String × String) → List Char
  | [] => []
  | [pair] => encodePair pair
  | pair :: rest => encodePair pair ++ '&' :: encodePairChars rest

/-- The query string of a list of pairs. -/
def encodePairs (pairs : List (String × String)) : String := String.ofList (encodePairChars pairs)

end ResourceQuery.Text.FormEncoding
