import ResourceQuery.Error

/-!
# Order clauses

An ordering is a list of clauses, each an attribute and a direction. Declarations may spell
one in several ways: a name, a pair of a name and a direction, a map from names to directions,
or any nesting of lists and tuples of these.

Headlines:
* **`Direction.read?`**: the direction that a value names.
* **`normalizeOrder`**: any spelling as a flat list of clauses.
-/

namespace ResourceQuery

namespace Direction

/-- A direction by its name, exactly as it is spelt. -/
def read? (v : Value) : Option Direction := v.text?.bind ofText?

/-- A direction as a value. -/
def toValue (d : Direction) : Value := .direction d

@[simp] theorem read?_toValue (d : Direction) : read? d.toValue = some d := by
  cases d <;> rfl

end Direction

/-- Sort by an attribute in a direction. -/
structure OrderClause where
  name : String
  direction : Direction
deriving Repr, DecidableEq

namespace OrderClause

/-- A clause as the pair that a collection is handed. -/
def toValue (c : OrderClause) : Value := .tuple [.str c.name, c.direction.toValue]

/-- How a list of clauses shows in log messages. -/
def literalOf (clauses : List OrderClause) : String := (Value.tuple (clauses.map toValue)).literal

end OrderClause

/-! ## Reading a declared ordering -/

/-- A direction in a declaration. -/
def declaredDirection (v : Value) : Except QueryError Direction :=
  match Direction.read? v with
  | some d => .ok d
  | none => .error (.misconfigured (.unknownDirection v))

/-- The clauses of a map from names to directions. -/
def clausesOfMap : List (Value × Value) → Except QueryError (List OrderClause)
  | [] => .ok []
  | (k, v) :: rest => do
    let direction ← declaredDirection v
    return ⟨k.plain, direction⟩ :: (← clausesOfMap rest)

/-- A tuple of a name and a direction, as the one clause that it spells. -/
def pairClause? : List Value → Option OrderClause
  | [name, d] => do return ⟨← name.spelling?, ← Direction.read? d⟩
  | _ => none

mutual

/-- The clauses that a declared ordering spells. -/
def normalizeOrder : Value → Except QueryError (List OrderClause)
  | .str name => .ok [⟨name, .asc⟩]
  | .direction d => .ok [⟨d.text, .asc⟩]
  | .loose t => .ok [⟨t.shown, .asc⟩]
  | .map entries => clausesOfMap entries
  | .tuple items =>
    match pairClause? items with
    | some clause => .ok [clause]
    | none => normalizeAll items
  | .list items => normalizeAll items
  | v => .error (.misconfigured (.unreadableOrdering v))

/-- The clauses of several orderings, one after the other. -/
def normalizeAll : List Value → Except QueryError (List OrderClause)
  | [] => .ok []
  | item :: items => do
    let first ← normalizeOrder item
    return first ++ (← normalizeAll items)

end

end ResourceQuery
