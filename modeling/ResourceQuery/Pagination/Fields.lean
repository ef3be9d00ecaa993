import ResourceQuery.Error
import ResourceQuery.Number.Reading

/-!
# Page parameters

The fields of the `page` parameter, read from values of any kind. Every field is read, and all
that are wrong are reported together, in the order in which they are declared. Keys that are
no fields are ignored.

Headlines:
* **`plainInteger`**: an integer as it is usually written, in at most `maxDigits` digits.
* **`tidied?`**: a text without the ornaments that an integer may have: a plus, zeros in front,
  underscores, and a fraction of zeros.
* **`readWhole`**: the texts that count as integers, as they are or tidied. Only `0` to `9` are
  digits here.
* **`integerField`**: an optional integer with a lower bound.
* **`PageFields.read`**, **`KeysetFields.read`**: the fields of numbered pages and of pages that
  start at a position.

What is assumed of pydantic, which reads the fields and takes what can be converted:
* For an integer it takes integers, truth values as one and zero, doubles without a fraction that
  lie within 64 bits, and the texts that `readWhole` reads. It takes a text for a text and one of
  two words for a side, and for anything the absent value where the field may be absent.
* A text with surrogates on their own is neither an integer nor a word. As a text it is taken as it
  is.
* It tries every field and reports all faults in the order of declaration, worded as in
  `FieldFault.message`.
-/

namespace ResourceQuery.Pagination

open Text Number

-- Powers here are the core library's, whatever a module that uses this one imports.
attribute [local instance (2000)] instPowNat

/-! ## Single fields -/

/-- What is wrong with a field. -/
inductive FieldFault where
  | notInteger
  | fractional
  | unreadable
  | tooLarge
  | notFinite
  | below (bound : Int)
  | notText
  /-- A text with surrogates on their own. -/
  | notUnicode
  | notSide
deriving Repr, DecidableEq

/-- The wording of a fault. -/
def FieldFault.message : FieldFault → String
  | .notInteger => "Input should be a valid integer"
  | .fractional => "Input should be a valid integer, got a number with a fractional part"
  | .unreadable => "Input should be a valid integer, unable to parse string as an integer"
  | .tooLarge => "Unable to parse input string as an integer, exceeded maximum size"
  | .notFinite => "Input should be a finite number"
  | .below bound => "Input should be greater than or equal to " ++ toString bound
  | .notText => "Input should be a valid string"
  | .notUnicode =>
    "Input should be a valid string, unable to parse raw data as a unicode string"
  | .notSide => "Input should be 'after' or 'before'"

/-- An integer without ornaments: an optional minus, then at most `maxDigits` digits without a
zero in front. Too many of them are noticed before whatever follows them. -/
def plainInteger (cs : List Char) : Except FieldFault Int :=
  let (negative, body) := takeMinus cs
  let digits := body.takeWhile Char.isDigit
  if digits.head? = some '0' then
    if body = ['0'] then .ok 0 else .error .unreadable
  else if maxDigits < digits.length then .error .tooLarge
  else if digits.isEmpty || digits.length != body.length then .error .unreadable
  else .ok (Binary64.signed negative (numeral (digits.filterMap asciiDigitValue)))
where
  /-- Take an optional minus off. -/
  takeMinus : List Char → Bool × List Char
    | '-' :: cs => (true, cs)
    | cs => (false, cs)

/-- Take an optional plus off. A minus cannot follow it. -/
def withoutPlus? : List Char → Option (List Char)
  | '+' :: '-' :: _ => none
  | '+' :: cs => some cs
  | cs => some cs

/-- Drop zeros and underscores up to a digit or a minus. A point keeps the character in front of
it, and so does the end. -/
def dropZeros (previous : Char) : List Char → Option (List Char)
  | [] => some [previous]
  | c :: cs =>
    if c = '0' || c = '_' then dropZeros c cs
    else if c.isDigit || c = '-' then some (c :: cs)
    else if c = '.' then some (previous :: c :: cs)
    else none

/-- Drop zeros in front. Only a digit or a minus can start a number. -/
def withoutLeadingZeros? : List Char → Option (List Char)
  | [] => none
  | c :: cs =>
    if c = '0' then dropZeros c cs
    else if c.isDigit || c = '-' then some (c :: cs)
    else none

/-- Drop a fraction of zeros. -/
def withoutZeroFraction (cs : List Char) : List Char :=
  match cutAt (· = '.') cs with
  | (whole, some zeros) => if !zeros.isEmpty && zeros.all (· = '0') then whole else cs
  | _ => cs

/-- Are there single underscores inside the text, and no others? -/
def hasSingleUnderscores : List Char → Bool
  | [] | [_] => true
  | '_' :: '_' :: _ => false
  | _ :: cs => hasSingleUnderscores cs

/-- Drop underscores if each stands alone inside the text. -/
def withoutUnderscores (cs : List Char) : List Char :=
  if cs.head? = some '_' || cs.getLast? = some '_' || !hasSingleUnderscores cs then cs
  else cs.filter (· ≠ '_')

/-- A text without the ornaments of an integer, nothing if it cannot be one. A minus in front
stays in front. -/
def tidied? (cs : List Char) : Option (List Char) := do
  match ← withoutPlus? cs with
  | '-' :: body => return '-' :: (← bare? body)
  | body => bare? body
where
  /-- What is left of a text that carries no sign. -/
  bare? (body : List Char) : Option (List Char) :=
    (withoutLeadingZeros? body).map fun cs => withoutUnderscores (withoutZeroFraction cs)

/-- The integer that fills a text up to white space around it. A text that is too long only once
it is tidied is not read at all. -/
def readWhole (s : String) : Except FieldFault Int :=
  let cs := trimWith isWhiteSpace s.toList
  match plainInteger cs with
  | .error .unreadable =>
    match (tidied? cs).map plainInteger with
    | some (.ok i) => .ok i
    | _ => .error .unreadable
  | outcome => outcome

/-- A double as an integer. It has to lie strictly within 64 bits. -/
def integerOfDouble (x : Binary64) : Except FieldFault Int :=
  match x with
  | .nan | .infinite _ => .error .notFinite
  | .finite .. =>
    match x.toInt? with
    | some i => if i.natAbs < 2 ^ (63 : Nat) then .ok i else .error .tooLarge
    | none => .error .fractional

/-- A value as an integer, `none` for the absent value. -/
def integer? : Value → Except FieldFault (Option Int)
  | .null => .ok none
  | .int i => .ok (some i)
  | .bool b => .ok (some (if b then 1 else 0))
  | .float x => (integerOfDouble x).map some
  | .str s => (readWhole s).map some
  | .loose _ => .error .notUnicode
  | _ => .error .notInteger

/-- An integer that is absent or at least `bound`. -/
def integerField (bound : Int) (v : Value) : Except FieldFault (Option Int) := do
  match ← integer? v with
  | none => return none
  | some i => if i < bound then throw (.below bound) else return some i

/-- A field for which a blank text counts as absent. -/
def blankableField (bound : Int) (v : Value) : Except FieldFault (Option Int) :=
  match v with
  | .str s => if isBlank s then .ok none else integerField bound v
  | v => integerField bound v

theorem integerField_bound {bound i : Int} {v : Value}
    (h : integerField bound v = .ok (some i)) : bound ≤ i := by
  unfold integerField at h
  cases hv : integer? v with
  | error e => rw [hv] at h; cases h
  | ok o =>
    rw [hv] at h
    cases o with
    | none => cases h
    | some j =>
      by_cases hj : j < bound
      · simp [bind, Except.bind, hj, throw, throwThe, MonadExceptOf.throw] at h
      · simp only [bind, Except.bind, hj, if_false, pure, Except.pure, Except.ok.injEq,
          Option.some.injEq] at h
        omega

/-! ## Reporting -/

/-- The fault of a field that could not be read. -/
def faultOf? {α : Type} : Except FieldFault α → Option FieldFault
  | .ok _ => none
  | .error fault => some fault

/-- The error for the fields that are wrong, one message for each. -/
def invalid (fields : List (String × Option FieldFault)) : QueryError :=
  .invalidPage (.ofFields (fields.filterMap fun (name, fault?) =>
    fault?.map fun fault => ("page." ++ name, .list [.str fault.message])))

/-- The value of a field, absent if it is not given. -/
def fieldValue (name : String) (entries : List (Value × Value)) : Value :=
  (Value.lookup? name entries).getD .null

/-! ## Numbered pages -/

/-- The fields of numbered pages. -/
structure PageFields where
  number : Option Int
  size : Option Int
  offset : Option Int
  outset : Option Int
deriving Repr, DecidableEq

namespace PageFields

/-- Read the fields of a `page` parameter. -/
def read (entries : List (Value × Value)) : Except QueryError PageFields :=
  let number := blankableField 1 (fieldValue "number" entries)
  let size := blankableField 1 (fieldValue "size" entries)
  let offset := blankableField 0 (fieldValue "offset" entries)
  let outset := blankableField 0 (fieldValue "outset" entries)
  match number, size, offset, outset with
  | .ok number, .ok size, .ok offset, .ok outset => .ok ⟨number, size, offset, outset⟩
  | _, _, _, _ =>
    .error (invalid [("number", faultOf? number), ("size", faultOf? size),
      ("offset", faultOf? offset), ("outset", faultOf? outset)])

/-- The number of leading records to skip on every page, if it is given under either name. -/
def skipped? (f : PageFields) : Option Int := f.offset.or f.outset

/-- The number of leading records to skip on every page. -/
def padding (f : PageFields) : Int := f.skipped?.getD 0

end PageFields

/-! ## Pages that start at a position -/

/-- The side of the position that a page lies on. -/
inductive Seek where
  | after | before
deriving Repr, DecidableEq

namespace Seek

/-- The name of a side. -/
def name : Seek → String
  | .after => "after"
  | .before => "before"

/-- The side of a name, and the one where none is given. -/
def read (given : Option Value) : Except FieldFault Seek :=
  match given with
  | none | some (.str "after") => .ok .after
  | some (.str "before") => .ok .before
  | some (.loose _) => .error .notUnicode
  | _ => .error .notSide

end Seek

/-- The fields of pages that start at a position. -/
structure KeysetFields where
  column : Option String
  position : Value
  seek : Seek
  limit : Option Int
deriving Repr

namespace KeysetFields

/-- An optional text. -/
def textField : Value → Except FieldFault (Option String)
  | .null => .ok none
  | .str s => .ok (some s)
  | .loose t => .ok (some t.shown)
  | _ => .error .notText

/-- Read the fields of a `page` parameter. -/
def read (entries : List (Value × Value)) : Except QueryError KeysetFields :=
  let column := textField (fieldValue "column" entries)
  let seek := Seek.read (Value.lookup? "direction" entries)
  let limit := integerField 1 (fieldValue "limit" entries)
  match column, seek, limit with
  | .ok column, .ok seek, .ok limit => .ok ⟨column, fieldValue "position" entries, seek, limit⟩
  | _, _, _ =>
    .error (invalid [("column", faultOf? column), ("direction", faultOf? seek),
      ("limit", faultOf? limit)])

end KeysetFields

end ResourceQuery.Pagination
