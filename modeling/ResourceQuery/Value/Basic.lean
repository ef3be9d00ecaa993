import ResourceQuery.Keyword
import ResourceQuery.Number.Binary64
import ResourceQuery.Text.LooseText

/-!
# Values

The data that requests, settings and records are made of. Requests are decoded from the
outside, so nothing is known of their shape in advance: a filter value may be a text, a
number, a list or a nested map.

Headlines:
* **`Value`**: the type. Maps and records keep the order in which their entries were given.
* **`Value.same`**: equality of values. Numbers are compared by size whatever their kind, maps,
  sets and records regardless of order, and lists differ from tuples.
* **`Value.text?`**: the text of a value. A direction counts as its name.
* **`Value.spelling?`**: the same for any text; surrogates on their own are written as escapes.
* **`Value.items?`**: what a value lists, if it lists anything.
* **`Value.isTruthy`**: what a value counts for where a yes or no is asked for.
* **`Value.mapOf`**, **`Value.setOf`**: building maps and sets without repeated keys.

Out of scope:
* How deep values are nested. Nothing here runs out of stack, whatever it is given.
* How long integers are. They are written out in full, of whatever size. What is kept of the limit
  of 4300 digits (`Number.maxDigits`) is that on texts that are read as numbers, on the numbers of
  page logs, and on the next page where pages are not counted.
* Surrogates in names. The attributes of a record are `String`s, and a name that a request gives
  with a surrogate on its own is looked up as it shows, as an escape (`Value.spelling?`).
-/

namespace ResourceQuery

open Number

/-- A value of any shape. -/
inductive Value where
  /-- The absent value. -/
  | null
  | bool (b : Bool)
  /-- An integer of any size. -/
  | int (i : Int)
  | float (x : Binary64)
  | str (s : String)
  /-- A direction of sorting; it counts as the text of its name. -/
  | direction (d : Direction)
  /-- A text that no `String` holds. -/
  | loose (t : LooseText)
  | list (items : List Value)
  /-- A list of fixed shape; it never equals a list. -/
  | tuple (items : List Value)
  /-- A collection without order or repetition. -/
  | set (items : List Value)
  /-- Entries with keys of any kind, no two of which are the same. -/
  | map (entries : List (Value × Value))
  /-- A record with named attributes, which is not a map. -/
  | record (attributes : List (String × Value))
deriving Repr, Inhabited

namespace Value

/-- A value as a number to compare with: `true` counts for one and `false` for zero. -/
def number? : Value → Option Binary64
  | .bool b => some (.ofInt (if b then 1 else 0))
  | .int i => some (.ofInt i)
  | .float x => some x
  | _ => none

/-- Are both values numbers of equal size? -/
def sameNumber (a b : Value) : Bool :=
  match a.number?, b.number? with
  | some x, some y => x.compare? y == some .eq
  | _, _ => false

/-- The text of a value that is one. -/
def text? : Value → Option String
  | .str s => some s
  | .direction d => some d.text
  | _ => none

/-- The text of a value as names and methods of texts see it. -/
def spelling? : Value → Option String
  | .loose t => some t.shown
  | v => v.text?

theorem spelling?_of_text? {v : Value} {s : String} (h : v.text? = some s) :
    v.spelling? = some s := by
  cases v with
  | str | direction => exact h
  | _ => cases h

/-- The code points of any text. -/
def textPoints? : Value → Option (List Nat)
  | .loose t => some t.points
  | v => v.text?.map pointsOf

/-- Are both values the same text, or numbers of equal size? -/
def sameScalar (a b : Value) : Bool :=
  match a.text?, b.text? with
  | some s, some t => s == t
  | _, _ => sameNumber a b

mutual

/-- Equality of values. -/
def same : Value → Value → Bool
  | .null, .null => true
  | .list xs, .list ys => sameItems xs ys
  | .tuple xs, .tuple ys => sameItems xs ys
  | .set xs, .set ys => xs.length == ys.length && allAmong xs ys
  | .map es, .map fs => es.length == fs.length && entriesAmong es fs
  | .record es, .record fs => es.length == fs.length && attributesAmong es fs
  | .loose s, .loose t => s == t
  | a, b => sameScalar a b

/-- Equality of two lists of values, place by place. -/
def sameItems : List Value → List Value → Bool
  | [], [] => true
  | x :: xs, y :: ys => same x y && sameItems xs ys
  | _, _ => false

/-- Is every value of the first list among those of the second? -/
def allAmong : List Value → List Value → Bool
  | [], _ => true
  | x :: xs, ys => ys.any (same x ·) && allAmong xs ys

/-- Is every entry of the first list among those of the second? -/
def entriesAmong : List (Value × Value) → List (Value × Value) → Bool
  | [], _ => true
  | (k, v) :: es, fs => fs.any (fun (k', v') => same k k' && same v v') && entriesAmong es fs

/-- Is every attribute of the first list among those of the second? -/
def attributesAmong : List (String × Value) → List (String × Value) → Bool
  | [], _ => true
  | (k, v) :: es, fs => fs.any (fun (k', v') => k == k' && same v v') && attributesAmong es fs

end

/-- What a value counts for where a yes or no is asked for: nothing, zero and whatever is
empty count for no. -/
def isTruthy : Value → Bool
  | .null => false
  | .bool b => b
  | .int i => i != 0
  | .float x => !x.isZero
  | .str s => s != ""
  | .direction _ | .loose _ => true
  | .list items | .tuple items | .set items => !items.isEmpty
  | .map entries => !entries.isEmpty
  | .record _ => true

/-- Is this the absent value? -/
def isNull : Value → Bool
  | .null => true
  | _ => false

/-! ## Maps and sets -/

/-- The value that a list of entries holds under a text. -/
def lookup? (name : String) : List (Value × Value) → Option Value
  | [] => none
  | (k, v) :: rest => if k.text? = some name then some v else lookup? name rest

/-- Put a value under a key: in place if the key is there already, else at the end. The key
that was there first stays. -/
def put (key value : Value) : List (Value × Value) → List (Value × Value)
  | [] => [(key, value)]
  | (k, v) :: rest => if same k key then (k, value) :: rest else (k, v) :: put key value rest

/-- A map of the given entries; of two with the same key the last value counts. -/
def mapOf (entries : List (Value × Value)) : Value :=
  .map (entries.foldl (fun acc (k, v) => put k v acc) [])

/-- The values of a list, each once, where it stands first. -/
def distinct (items : List Value) : List Value :=
  items.foldl (fun acc x => if acc.any (same · x) then acc else acc ++ [x]) []

/-- A set of the given values, each once. -/
def setOf (items : List Value) : Value := .set (distinct items)

/-- A map whose keys are texts. -/
def ofFields (fields : List (String × Value)) : Value := .map (fields.map fun (k, v) => (.str k, v))

/-- The entries of a map. -/
def entries? : Value → Option (List (Value × Value))
  | .map entries => some entries
  | _ => none

/-- The text of code points. -/
def ofPoints (points : List Nat) : Value :=
  match LooseText.ofPoints? points with
  | some t => .loose t
  | none => .str (String.ofList (points.map Char.ofNat))

/-- The characters of a text, each as a text of its own. -/
def characters (s : String) : List Value := s.toList.map fun c => .str (String.singleton c)

/-- The characters of a text with surrogates on their own. -/
def looseCharacters (t : LooseText) : List Value := t.points.map fun p => ofPoints [p]

/-- What a value lists: the items of a list, a tuple or a set, the keys of a map, the characters
of a text. -/
def items? : Value → Option (List Value)
  | .list items | .tuple items | .set items => some items
  | .map entries => some (entries.map (·.1))
  | .loose t => some (looseCharacters t)
  | v => v.text?.map characters

/-- An integer, or a truth value counted as one or zero. -/
def wholeNumber? : Value → Option Int
  | .int i => some i
  | .bool b => some (if b then 1 else 0)
  | _ => none

/-- An optional integer, absent as the absent value. -/
def ofOption (i : Option Int) : Value := (i.map Value.int).getD .null

/-- An optional text, absent as the absent value. -/
def ofText (s : Option String) : Value := (s.map Value.str).getD .null

end Value

end ResourceQuery
