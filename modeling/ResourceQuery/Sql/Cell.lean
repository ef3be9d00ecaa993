import ResourceQuery.Number.Reading
import ResourceQuery.Value.Literal

/-!
# Cells and their comparison

What a table holds and what a statement compares it with. A column prefers numbers or texts: a
text that looks like a number is compared with a column of numbers as that number, and a number
with a column of texts as its text, a double rounded to fifteen digits. Null compares with nothing.

Headlines:
* **`Cell`**: null, a number or a text. **`Cell.ofValue?`** the values that can be bound.
* **`Affinity.convert`**: a bound value as a column compares it.
* **`Cell.compare?`**: comparison, in which every text is above every number.
* **`Cell.place`**: the order of sorting, in which null comes first.
-/

namespace ResourceQuery.Sql

open Number Text

-- Powers here are the core library's, whatever a module that uses this one imports.
attribute [local instance (2000)] instPowNat

/-- What a table holds. -/
inductive Cell where
  | null
  | int (i : Int)
  | real (x : Binary64)
  | text (s : String)
deriving Repr, DecidableEq

/-- What a column prefers. -/
inductive Affinity where
  | integer
  | text
deriving Repr, DecidableEq

namespace Cell

/-- A cell as a value. -/
def toValue : Cell → Value
  | .null => .null
  | .int i => .int i
  | .real x => .float x
  | .text s => .str s

/-- A value as a cell; lists, maps and records have none. -/
def ofValue? : Value → Option Cell
  | .null => some .null
  | .bool b => some (.int (if b then 1 else 0))
  | .int i => some (.int i)
  | .float x => some (.real x)
  | v => v.text?.map .text

/-- A cell as a number. -/
def number? : Cell → Option Binary64
  | .int i => some (.ofInt i)
  | .real x => some x
  | _ => none

/-- Compare two cells that are not null. -/
def compare? : Cell → Cell → Option Ordering
  | .null, _ | _, .null => none
  | .text a, .text b => some (Ord.compare a b)
  | .text _, _ => some .gt
  | _, .text _ => some .lt
  | a, b => do (← a.number?).compare? (← b.number?)

/-- Where a cell stands when sorted, null first. -/
def place (a b : Cell) : Ordering :=
  match a, b with
  | .null, .null => .eq
  | .null, _ => .lt
  | _, .null => .gt
  | a, b => (a.compare? b).getD .eq

end Cell

/-! ## Texts that look like numbers -/

/-- The characters that may surround a number. -/
def isSpacing (c : Char) : Bool := c = ' ' || ('\t' ≤ c && c ≤ '\r')

/-- Digits that fill a text, which may be empty. -/
def digits? (cs : List Char) : Option (List Nat) := cs.mapM asciiDigitValue

/-- Is an integer within 64 bits? -/
def isStorable (i : Int) : Bool := -(2 ^ (63 : Nat)) ≤ i && i < 2 ^ (63 : Nat)

/-- The power of ten at the end of a number. -/
def powerOf? : Option (List Char) → Option Int
  | none => some 0
  | some cs => do
    let (negative, cs) := takeSign cs
    guard !cs.isEmpty
    return Binary64.signed negative (numeral (← digits? cs))

/-- The number that a text looks like. -/
def numberOfText? (s : String) : Option Cell := do
  let (negative, cs) := takeSign (trimWith isSpacing s.toList)
  let (mantissa, power) := cutAt (fun c => c = 'e' || c = 'E') cs
  let (whole, fraction) := cutAt (· = '.') mantissa
  let wholeDigits ← digits? whole
  let fractionDigits ← digits? (fraction.getD [])
  guard (!(wholeDigits.isEmpty && fractionDigits.isEmpty))
  let exponent ← powerOf? power
  let digits := wholeDigits ++ fractionDigits
  let i := Binary64.signed negative (numeral digits)
  if fraction.isNone && power.isNone && isStorable i then return .int i
  else return .real (ofDecimal negative (numeral digits) (exponent - fractionDigits.length))

/-! ## Numbers as texts -/

/-- The style of a double among texts: fifteen digits, positional from `0.0001` to below `1e+15`,
always with a point. -/
def textStyle : DecimalStyle where
  significant := some 15
  pointAfter := -4
  pointUpTo := 15
  exponentDigits := 2
  wholeTail := ['.', '0']
  mantissaTail := ['.', '0']
  infinity := "Inf"

/-- A double as a text. Zero shows no sign, and NaN is null. -/
def textOfReal : Binary64 → Cell
  | .nan => .null
  | .finite _ 0 e => .text (decimalText textStyle (.finite false 0 e))
  | x => .text (decimalText textStyle x)

/-- A bound value as a column compares it. -/
def Affinity.convert : Affinity → Cell → Cell
  | .integer, .text s => (numberOfText? s).getD (.text s)
  | .text, .int i => .text (toString i)
  | .text, .real x => textOfReal x
  | _, c => c

end ResourceQuery.Sql
