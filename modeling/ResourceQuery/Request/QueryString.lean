import ResourceQuery.Error
import ResourceQuery.Text.FormEncoding

/-!
# Query strings

Request parameters written back as a query string, as pagination links need it. A nested map
becomes `key[sub]=value`, a list `key[]=item` for each item, and an absent value nothing.

Headlines:
* **`QueryString.flatten`**: parameters as a flat list of names and texts.
* **`QueryString.looseIn?`**: the first name or text that has no encoded form.
* **`QueryString.build`**: the encoded query string behind a base address, if all texts have one.

Out of scope: a query string cannot be built for want of stack, where parameters are nested too
deep, or because a number among them has too many digits. Here only a text without an encoded form
stands in the way.
-/

namespace ResourceQuery.QueryString

/-- The name of a key inside the map called `parent`, or at the top. -/
def nestedName (parent : String) (key : Value) : String :=
  if parent = "" then key.plain else parent ++ "[" ++ key.plain ++ "]"

mutual

/-- The pairs of one parameter. -/
def flattenValue (name : String) : Value → List (String × String)
  | .null => []
  | .map entries => flattenEntries name entries
  | .list items | .tuple items => items.map fun item => (name ++ "[]", item.plain)
  | v => [(name, v.plain)]

/-- The pairs of the entries of a map called `parent`; an empty name stands for the top. -/
def flattenEntries (parent : String) : List (Value × Value) → List (String × String)
  | [] => []
  | (key, v) :: rest => flattenValue (nestedName parent key) v ++ flattenEntries parent rest

end

/-- Parameters as a flat list of names and texts, in their order. -/
def flatten (params : List (Value × Value)) : List (String × String) := flattenEntries "" params

/-! ## Texts that have no encoded form -/

/-- The code points of the name of a key, like `nestedName`. -/
def nestedPoints (parent : List Nat) (key : Value) : List Nat :=
  if parent.isEmpty then key.points
  else parent ++ pointsOf "[" ++ key.points ++ pointsOf "]"

/-- The first of a name and a text that cannot be encoded. -/
def looseOf? (name text : List Nat) : Option LooseText :=
  (LooseText.ofPoints? name).or (LooseText.ofPoints? text)

mutual

/-- The first name or text among the pairs of a parameter that cannot be encoded. -/
def looseInValue? (name : List Nat) : Value → Option LooseText
  | .null => none
  | .map entries => looseInEntries? name entries
  | .list items | .tuple items =>
    items.findSome? fun item => looseOf? (name ++ pointsOf "[]") item.points
  | v => looseOf? name v.points

/-- The first name or text among the pairs of a map called `parent` that cannot be encoded. -/
def looseInEntries? (parent : List Nat) : List (Value × Value) → Option LooseText
  | [] => none
  | (key, v) :: rest =>
    (looseInValue? (nestedPoints parent key) v).or (looseInEntries? parent rest)

end

/-- The first name or text among the pairs of parameters that cannot be encoded. -/
def looseIn? (params : List (Value × Value)) : Option LooseText := looseInEntries? [] params

/-! ## The query string -/

/-- The query string of parameters without such texts. Without a base it starts with a question
mark; a base that has one already is continued with an ampersand; without pairs only the base is
left. -/
def spell (params : List (Value × Value)) (base : Option String) : String :=
  let pairs := flatten params
  let query := Text.FormEncoding.encodePairs pairs
  match base with
  | none => if pairs.isEmpty then "" else "?" ++ query
  | some base =>
    if pairs.isEmpty then base
    else base ++ (if base.toList.contains '?' then "&" else "?") ++ query

/-- The query string of parameters, if all of it can be encoded. -/
def build (params : List (Value × Value)) (base : Option String) : Except QueryError String :=
  match looseIn? params with
  | some text => .error (.unencodable text)
  | none => .ok (spell params base)

end ResourceQuery.QueryString
