import ResourceQuery.Error

/-!
# Values that have to be of a kind

Where a text or a map is asked for what only these can do, a value of another kind has nothing to
offer and is refused. A map can also be made of a value: of a map, or of anything that lists
pairs, each item taken apart into a key and a value. Of two pairs with the same key the last
value counts.

Headlines:
* **`Value.textFor`**, **`Value.entriesFor`**: the text and the entries of a value.
* **`Value.textFor_eq_ok_iff`**, **`entriesFor_eq_ok_iff`**: only texts and maps are accepted.
* **`Value.toEntries`**: the entries of the map that a value makes.
-/

namespace ResourceQuery.Value

/-- The text of a value that is asked for a method of texts. -/
def textFor (method : String) (v : Value) : Except QueryError String :=
  match v.spelling? with
  | some s => .ok s
  | none => .error (.lackOf method v)

/-- The entries of a value that is asked for a method of maps. -/
def entriesFor (method : String) (v : Value) : Except QueryError (List (Value × Value)) :=
  match v.entries? with
  | some entries => .ok entries
  | none => .error (.lackOf method v)

theorem textFor_eq_ok_iff {method : String} {v : Value} {s : String} :
    textFor method v = .ok s ↔ v.spelling? = some s := by
  unfold textFor
  cases v.spelling? <;> simp

theorem textFor_of_text? {v : Value} {s : String} (h : v.text? = some s) (method : String) :
    textFor method v = .ok s :=
  textFor_eq_ok_iff.mpr (spelling?_of_text? h)

theorem entriesFor_eq_ok_iff {method : String} {v : Value} {entries : List (Value × Value)} :
    entriesFor method v = .ok entries ↔ v = .map entries := by
  cases v <;> simp [entriesFor, entries?]

/-! ## Values as maps -/

/-- The key and the value that the item at a place stands for. -/
def pairOf (place : Nat) (item : Value) : Except QueryError (Value × Value) :=
  match item.items? with
  | none => .error .wrongKind
  | some [key, v] => if key.isHashable then .ok (key, v) else .error .wrongKind
  | some parts => .error (.invalidValue (.notPair place parts.length))

/-- The entries of the map that a value makes. -/
def toEntries (v : Value) : Except QueryError (List (Value × Value)) :=
  match v with
  | .map entries => .ok entries
  | v =>
    match v.items? with
    | none => .error .wrongKind
    | some items => do
      let pairs ← items.zipIdx.mapM fun (item, place) => pairOf place item
      return pairs.foldl (fun entries (key, value) => put key value entries) []

end ResourceQuery.Value
