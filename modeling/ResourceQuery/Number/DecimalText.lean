import ResourceQuery.Number.Binary64

/-!
# Decimal text of a double

A double is written with the fewest significant digits that read back as the same double, or
rounded to a number of digits. For the fewest, only the two decimal neighbours of the value have
to be tried for each number of digits; of two that read back, the nearer one is taken, and of two
equally near the one with an even digit.

Headlines:
* **`shortestDigits`**, **`roundedDigits`**: the digits and the place of the decimal point.
* **`DecimalStyle`**: how many digits there are, where positional notation ends and how the rest
  is written.
* **`decimalText`**: the text of a double; **`plainStyle`** that of messages and query strings.
-/

namespace ResourceQuery.Number

-- Powers here are the core library's, whatever a module that uses this one imports.
attribute [local instance (2000)] instPowNat

/-- Numerator and denominator of the finite number `m · 2 ^ e`. -/
def fractionOf (m : Nat) (e : Int) : Nat × Nat :=
  if 0 ≤ e then (m * 2 ^ e.toNat, 1) else (m, 2 ^ (-e).toNat)

/-- The number `p` with `10 ^ (p - 1) ≤ num / den < 10 ^ p`, for a positive quotient. -/
def decimalMagnitude (num den : Nat) : Int :=
  let integral := num / den
  if 0 < integral then (Nat.toDigits 10 integral).length
  else
    -- the quotient `den / num` rounded up has as many digits as there are zeros to cross
    let crossed := (Nat.toDigits 10 ((den + num - 1) / num - 1)).length
    1 - (crossed : Int)

/-- Does `digits · 10 ^ exponent` read back as the double `m · 2 ^ e`? -/
def readsBack (digits : Nat) (exponent : Int) (m : Nat) (e : Int) : Bool :=
  ofDecimal false digits exponent == .finite false m e

/-- The decimal of `count` digits nearest to `num / den` that reads back as `m · 2 ^ e`. -/
def candidate? (num den : Nat) (m : Nat) (e : Int) (magnitude : Int) (count : Nat) :
    Option (Nat × Int) :=
  let exponent := magnitude - count
  let (n, d) :=
    if 0 ≤ exponent then (num, den * 10 ^ exponent.toNat)
    else (num * 10 ^ (-exponent).toNat, den)
  let below := n / d
  let above := below + 1
  let belowFirst := 2 * (n % d) < d || (2 * (n % d) = d && below % 2 = 0)
  let nearerFirst := if belowFirst then [below, above] else [above, below]
  (nearerFirst.find? (readsBack · exponent m e)).map (·, exponent)

/-- Fewest digits that read back as the positive double `m · 2 ^ e`, with the exponent of the
last digit. Seventeen digits always do. -/
def shortestDecimal (m : Nat) (e : Int) : Nat × Int :=
  let (num, den) := fractionOf m e
  let magnitude := decimalMagnitude num den
  ((List.range 17).findSome? fun i => candidate? num den m e magnitude (i + 1)).getD (num, 0)

/-- The digits of a decimal without zeros at the end, and the place of the decimal point counted
from the first digit. -/
def digitsAndPoint (value : Nat) (exponent : Int) : List Char × Int :=
  let digits := Nat.toDigits 10 value
  ((digits.reverse.dropWhile (· = '0')).reverse, exponent + digits.length)

/-- The fewest significant digits that read back, and the place of the decimal point. -/
def shortestDigits (m : Nat) (e : Int) : List Char × Int :=
  let (value, exponent) := shortestDecimal m e
  digitsAndPoint value exponent

/-- The significant digits rounded to a number of them, a half going up, and the place of the
decimal point. -/
def roundedDigits (count : Nat) (m : Nat) (e : Int) : List Char × Int :=
  let (num, den) := fractionOf m e
  let exponent := decimalMagnitude num den - count
  let (n, d) :=
    if 0 ≤ exponent then (num, den * 10 ^ exponent.toNat)
    else (num * 10 ^ (-exponent).toNat, den)
  digitsAndPoint ((2 * n + d) / (2 * d)) exponent

/-- The decisions of a decimal format. -/
structure DecimalStyle where
  /-- The number of significant digits; as few as read back if there is none. -/
  significant : Option Nat
  /-- Positional notation is used while the decimal point is after this place, -/
  pointAfter : Int
  /-- and up to this place. -/
  pointUpTo : Int
  /-- Least number of digits of an exponent. -/
  exponentDigits : Nat
  /-- What stands after the point of a whole number. -/
  wholeTail : List Char
  /-- What stands between a single digit and an exponent. -/
  mantissaTail : List Char
  /-- The text of an infinity. -/
  infinity : String
deriving Repr

/-- The style of messages: positional from `0.0001` to below `1e+16`, a whole number ends in
`.0`, an exponent has a sign and at least two digits. -/
def plainStyle : DecimalStyle where
  significant := none
  pointAfter := -4
  pointUpTo := 16
  exponentDigits := 2
  wholeTail := ['.', '0']
  mantissaTail := []
  infinity := "inf"

/-- Digits and a decimal point in positional notation. -/
def positionalText (style : DecimalStyle) (digits : List Char) (point : Int) : List Char :=
  if point ≤ 0 then '0' :: '.' :: List.replicate (-point).toNat '0' ++ digits
  else
    let whole := digits.take point.toNat
    let zeros := List.replicate (point.toNat - digits.length) '0'
    match digits.drop point.toNat with
    | [] => whole ++ zeros ++ style.wholeTail
    | fraction => whole ++ '.' :: fraction

/-- Digits and a decimal point in notation with an exponent. -/
def exponentText (style : DecimalStyle) (digits : List Char) (point : Int) : List Char :=
  let power := point - 1
  let powerDigits := Nat.toDigits 10 power.natAbs
  let padding := List.replicate (style.exponentDigits - powerDigits.length) '0'
  let mantissa :=
    match digits with
    | [] => ['0']
    | [d] => d :: style.mantissaTail
    | d :: rest => d :: '.' :: rest
  mantissa ++ 'e' :: (if power < 0 then '-' else '+') :: padding ++ powerDigits

/-- The text of a double in a style. -/
def decimalText (style : DecimalStyle) : Binary64 → String
  | .nan => "nan"
  | .infinite negative => (if negative then "-" else "") ++ style.infinity
  | .finite negative m e =>
    let body :=
      if m = 0 then '0' :: style.wholeTail
      else
        let (digits, point) :=
          match style.significant with
          | some count => roundedDigits count m e
          | none => shortestDigits m e
        if style.pointAfter < point && point ≤ style.pointUpTo then
          positionalText style digits point
        else exponentText style digits point
    String.ofList (if negative then '-' :: body else body)

end ResourceQuery.Number
