/-!
# Keywords

The words with which a request and its settings are written: the directions of a sort, and the
stages of a query, which sorts its collection, includes related records, filters and pages. Each
is known by its name. A direction counts as that text wherever a text is asked for, and shows as
the constant that it is in messages.

Headlines:
* **`Direction`**, **`Stage`**: the two directions and the four stages.
* **`Direction.ofText?_text`**, **`Stage.read?_name`**: each is known by its name.
* **`Direction.title`**, **`Direction.literal`**: how a direction shows.
-/

namespace ResourceQuery

/-- A direction of sorting. -/
inductive Direction where
  | asc
  | desc
deriving Repr, DecidableEq, Inhabited

namespace Direction

/-- The name of a direction. -/
def text : Direction → String
  | .asc => "asc"
  | .desc => "desc"

/-- The direction of a name, exactly as it is spelt. -/
def ofText? : String → Option Direction
  | "asc" => some .asc
  | "desc" => some .desc
  | _ => none

@[simp] theorem ofText?_text (d : Direction) : ofText? d.text = some d := by
  cases d <;> rfl

/-- How a direction shows as a plain text. -/
def title : Direction → String
  | .asc => "SortDirection.ASC"
  | .desc => "SortDirection.DESC"

/-- How a direction shows in messages. -/
def literal (d : Direction) : String := "<" ++ d.title ++ ": '" ++ d.text ++ "'>"

end Direction

/-- A stage of a query. -/
inductive Stage where
  | sort | include | filter | paginate
deriving Repr, DecidableEq

namespace Stage

/-- The stages in their usual order. -/
def all : List Stage := [.sort, .include, .filter, .paginate]

/-- The name of a stage. -/
def name : Stage → String
  | .sort => "sort"
  | .include => "include"
  | .filter => "filter"
  | .paginate => "paginate"

/-- The stage of a name. -/
def read? (text : String) : Option Stage := all.find? fun s => s.name == text

@[simp] theorem read?_name (s : Stage) : read? s.name = some s := by
  cases s <;> decide

end Stage

end ResourceQuery
