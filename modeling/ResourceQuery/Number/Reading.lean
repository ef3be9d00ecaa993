import ResourceQuery.Number.Binary64
import ResourceQuery.Text.Blank

/-!
# Reading numbers

Two readers of a whole text, each of which gives nothing for any other text. White space around
the number is dropped, digits may come from any script, and a single underscore may stand
between two digits. Unicode gives each script's ten decimal digits ten consecutive code points
(Unicode 14.0), so the table of digits holds the zeros only.

Headlines:
* **`Text.digitValue`**, **`Text.asciiDigitValue`**: what a character counts for as a decimal
  digit, of any script and of `0` to `9` only.
* **`digitGroup`**: digits with single underscores between them.
* **`integerOf`**: a signed integer of up to `maxDigits` digits, or why there is none.
* **`readInteger`**: the integer alone.
* **`readDecimal`**: a decimal with fraction and exponent, an infinity or NaN, as a double.
-/

namespace ResourceQuery.Text

/-- The code points of the digits zero, one for each script. -/
def zeros : List Nat :=
  [
    0x30, 0x660, 0x6F0, 0x7C0, 0x966, 0x9E6, 0xA66, 0xAE6,
    0xB66, 0xBE6, 0xC66, 0xCE6, 0xD66, 0xDE6, 0xE50, 0xED0,
    0xF20, 0x1040, 0x1090, 0x17E0, 0x1810, 0x1946, 0x19D0, 0x1A80,
    0x1A90, 0x1B50, 0x1BB0, 0x1C40, 0x1C50, 0xA620, 0xA8D0, 0xA900,
    0xA9D0, 0xA9F0, 0xAA50, 0xABF0, 0xFF10, 0x104A0, 0x10D30, 0x11066,
    0x110F0, 0x11136, 0x111D0, 0x112F0, 0x11450, 0x114D0, 0x11650, 0x116C0,
    0x11730, 0x118E0, 0x11950, 0x11C50, 0x11D50, 0x11DA0, 0x16A60, 0x16AC0,
    0x16B50, 0x1D7CE, 0x1D7D8, 0x1D7E2, 0x1D7EC, 0x1D7F6, 0x1E140, 0x1E2F0,
    0x1E950, 0x1FBF0
  ]

/-- What `0` to `9` count for, and nothing for any other character. -/
def asciiDigitValue (c : Char) : Option Nat :=
  if c.isDigit then some (c.toNat - 0x30) else none

/-- What a decimal digit of any script counts for, and nothing for any other character. -/
def digitValue (c : Char) : Option Nat :=
  (zeros.find? fun first => first ≤ c.toNat && c.toNat < first + 10).map (c.toNat - ·)

theorem digitValue_lt_ten {c : Char} {d : Nat} (h : digitValue c = some d) : d < 10 := by
  obtain ⟨first, hfound, rfl⟩ := Option.map_eq_some_iff.1 h
  have := List.find?_some hfound
  simp only [Bool.and_eq_true, decide_eq_true_eq] at this
  omega

end ResourceQuery.Text

namespace ResourceQuery.Number

open ResourceQuery.Text

-- Powers here are the core library's, whatever a module that uses this one imports.
attribute [local instance (2000)] instPowNat

/-- Integers with more digits are neither read nor written. -/
def maxDigits : Nat := 4300

/-- Has an integer few enough digits to be written? -/
def isWritable (i : Int) : Bool := i.natAbs < 10 ^ maxDigits

/-- Digits up to the end of the text, after a digit. -/
def moreDigits (digit : Char → Option Nat) : List Char → Option (List Nat)
  | [] => some []
  | '_' :: c :: cs => do return (← digit c) :: (← moreDigits digit cs)
  | c :: cs => do return (← digit c) :: (← moreDigits digit cs)

/-- One or more digits that fill the text, with single underscores between them. -/
def digitGroup (digit : Char → Option Nat) : List Char → Option (List Nat)
  | [] => none
  | c :: cs => do return (← digit c) :: (← moreDigits digit cs)

/-- The number that a list of decimal digits stands for. -/
def numeral (digits : List Nat) : Nat := digits.foldl (fun n d => 10 * n + d) 0

/-- Take an optional sign off. -/
def takeSign : List Char → Bool × List Char
  | '-' :: cs => (true, cs)
  | '+' :: cs => (false, cs)
  | cs => (false, cs)

/-- Why a text is not read as an integer. -/
inductive IntegerFault where
  | malformed
  /-- It starts with too many digits, whatever follows them. -/
  | tooManyDigits (digits : Nat)
deriving Repr, DecidableEq

/-- Is this a digit of any script, or an underscore? -/
def isDigitOrUnderscore (c : Char) : Bool := c = '_' || (digitValue c).isSome

/-- The digits at the start of a text, and the text after them. -/
def leadingDigits (cs : List Char) : Option (List Nat) × List Char :=
  (digitGroup digitValue (cs.takeWhile isDigitOrUnderscore), cs.dropWhile isDigitOrUnderscore)

/-- The signed integer that fills the text up to white space around it, or why there is none. -/
def integerOf (s : String) : Except IntegerFault Int :=
  let (negative, cs) := takeSign (trimWith isWhiteSpace s.toList)
  match leadingDigits cs with
  | (none, _) => .error .malformed
  | (some digits, rest) =>
    if maxDigits < digits.length then .error (.tooManyDigits digits.length)
    else if rest.isEmpty then .ok (Binary64.signed negative (numeral digits))
    else .error .malformed

/-- The signed integer that fills the text up to white space around it. -/
def readInteger (s : String) : Option Int := (integerOf s).toOption

/-- The part of a text before the first character of a class, and the part after it if there
is one. -/
def cutAt (p : Char → Bool) : List Char → List Char × Option (List Char)
  | [] => ([], none)
  | c :: cs =>
    if p c then ([], some cs)
    else let (before, after) := cutAt p cs; (c :: before, after)

/-- Digits, or nothing at all. -/
def optionalDigits (cs : List Char) : Option (List Nat) :=
  if cs.isEmpty then some [] else digitGroup digitValue cs

/-- Digits with a fraction and an exponent, as digits and a power of ten. -/
def decimalParts (cs : List Char) : Option (List Nat × Int) := do
  let (mantissa, power) := cutAt (fun c => c = 'e' || c = 'E') cs
  let (whole, fraction) := cutAt (· = '.') mantissa
  let wholeDigits ← optionalDigits whole
  let fractionDigits ← optionalDigits (fraction.getD [])
  guard (!(wholeDigits.isEmpty && fractionDigits.isEmpty))
  let exponent : Int ←
    match power with
    | none => some 0
    | some cs =>
      let (negative, cs) := takeSign cs
      (digitGroup digitValue cs).map fun digits => Binary64.signed negative (numeral digits)
  return (wholeDigits ++ fractionDigits, exponent - fractionDigits.length)

/-- A decimal, an infinity or NaN that fills the text up to white space around it, as a double. -/
def readDecimal (s : String) : Option Binary64 :=
  let (negative, cs) := takeSign (trimWith isWhiteSpace s.toList)
  let word := String.ofList (cs.map Char.toLower)
  if word = "inf" || word = "infinity" then some (.infinite negative)
  else if word = "nan" then some .nan
  else (decimalParts cs).map fun (digits, exponent) => ofDecimal negative (numeral digits) exponent

end ResourceQuery.Number
