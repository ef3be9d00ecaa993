import ResourceQuery.Number.Reading
import ResourceQuery.Text.Segments
import ResourceQuery.Value.Basic

/-!
# Fields, and what they are compared with

`address.city` names the entry `city` of whatever stands under `address`. A path may lead
through maps and records alike; where it leads nowhere the result is the absent value.

A filter value is blank if it says nothing: the absent value, `false`, a text of blanks only,
or an empty list, tuple, set or map. Zero is not blank. A value that comes in as a text is read
as the kind of the field that it is compared with; a text that cannot be read so stays a text.

Headlines:
* **`Value.field`**, **`Value.resolve`**: one step and a whole path.
* **`Value.resolve_null`**: the absent value has nothing but absent fields.
* **`Value.presence`**: a value, with blank ones made absent; **`presence_presence`**: doing it
  twice changes nothing.
* **`Value.coerce`**: a text read as the kind of another value.
-/

namespace ResourceQuery.Value

/-! ## Paths into a record -/

/-- The value of an attribute, absent if there is none. -/
def field (name : String) : Value → Value
  | .map entries => (lookup? name entries).getD .null
  | .record attributes => ((attributes.find? fun a => a.1 == name).map (·.2)).getD .null
  | _ => .null

/-- The value that a dotted path leads to. -/
def resolve (v : Value) (path : String) : Value :=
  (Text.split '.' path).foldl (fun v name => field name v) v

@[simp] theorem field_null (name : String) : field name .null = .null := rfl

theorem resolve_null (path : String) : resolve .null path = .null := by
  unfold resolve
  induction Text.split '.' path with
  | nil => rfl
  | cons name rest ih => simpa using ih

/-- What a stored or fetched row is known by: its `id` if it is a map with that key or a record
with that attribute, else the row itself. -/
def rowId (row : Value) : Value :=
  match row with
  | .map entries => (lookup? "id" entries).getD row
  | .record attributes => ((attributes.find? fun a => a.1 == "id").map (·.2)).getD row
  | _ => row

/-! ## Blank values -/

/-- Does the value say nothing? -/
def isBlank : Value → Bool
  | .null | .bool false => true
  | .str s => Text.isBlank s
  | .list items | .tuple items | .set items => items.isEmpty
  | .map entries => entries.isEmpty
  | _ => false

/-- The value itself, or the absent value if it is blank. -/
def presence (v : Value) : Value := if v.isBlank then .null else v

theorem presence_presence (v : Value) : presence (presence v) = presence v := by
  by_cases h : v.isBlank = true
  · rw [show presence v = .null from if_pos h]
    rfl
  · rw [show presence v = v from if_neg h, show presence v = v from if_neg h]

/-! ## Reading a text as the kind of another value -/

open Number

/-- The same for a text with surrogates on their own, in which nothing can be read. -/
def coerceLoose (v like : Value) : Value :=
  match v, like with
  | .loose _, .bool _ => .bool true
  | .loose t, .list _ => .list (looseCharacters t)
  | .loose t, .tuple _ => .tuple (looseCharacters t)
  | .loose t, .set _ => setOf (looseCharacters t)
  | v, _ => v

/-- A text read as the kind of `like`; any other value, and a text that cannot be read so, as it
is. -/
def coerce (v like : Value) : Value :=
  match v.text? with
  | some s =>
    match like with
    | .bool _ => .bool (s != "")
    | .int _ => ((readInteger s).map .int).getD v
    | .float _ => ((readDecimal s).map .float).getD v
    | .list _ => .list (characters s)
    | .tuple _ => .tuple (characters s)
    | .set _ => setOf (characters s)
    | .map _ => if s = "" then .map [] else v
    | _ => v
  | none => coerceLoose v like

end ResourceQuery.Value
