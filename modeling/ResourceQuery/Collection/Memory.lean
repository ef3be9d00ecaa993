import ResourceQuery.Collection.Basic
import ResourceQuery.Sorting
import ResourceQuery.Value.Field
import ResourceQuery.Value.Demand
import ResourceQuery.Value.Order

/-!
# Collections in memory

A list of records with a query over it. Calls only describe the query; running it applies the
predicates, then the ordering, then the window, whatever the order of the calls was. Joins and
loads are kept on record and do not touch the data, since related records stand inside their
records already.

Headlines:
* **`Memory`**: the records and the query over them.
* **`Predicate.holds`**: the meaning of a predicate on a record.
* **`Memory.matching`**, **`Memory.sorted`**, **`Memory.rows`**: the three steps of running it.
* **`sortByClause`**: one stable sort. Records without the attribute come last when ascending.
-/

namespace ResourceQuery

/-- The side of a bound that is kept. -/
inductive Side where
  | above | below
deriving Repr, DecidableEq

/-- The side that a comparison operator keeps, by its name. -/
def Side.read? (operator : Value) : Option Side :=
  match operator.text? with
  | some "gt" => some .above
  | some "lt" => some .below
  | _ => none

/-- A predicate on records. -/
inductive Predicate where
  | criterion (c : Criterion)
  /-- The value at a path equals another, or is among those of a list, a tuple or a set. -/
  | equation (path : String) (expected : Value)
  /-- The value at a path is there and lies strictly beyond a bound. -/
  | beyond (name : Value) (side : Side) (bound : Value)

/-- The value of a record's attribute; only a text names one. -/
def attributeOf (name item : Value) : Except QueryError Value :=
  (name.textFor "split").map item.resolve

/-- A comparison that must not fail. -/
def orderOf : Option Bool → Except QueryError Bool
  | some b => .ok b
  | none => .error .wrongKind

namespace Predicate

/-- Does a value equal the expected one, or is it among the expected ones? -/
def meets (actual expected : Value) : Except QueryError Bool :=
  match expected with
  | .list items | .tuple items => .ok (items.any (actual.same ·))
  | .set items => orderOf (actual.inSet? items)
  | _ => .ok (actual.same expected)

/-- Does a record satisfy a predicate? -/
def holds (item : Value) : Predicate → Except QueryError Bool
  | .criterion (.test f) => f item
  | .criterion _ => .error .wrongKind
  | .equation path expected => meets (item.resolve path) expected
  | .beyond name side bound => do
    let actual ← attributeOf name item
    if actual.isNull then return false
    let target := bound.coerce actual
    match side with
    | .above => orderOf (target.below? actual)
    | .below => orderOf (actual.below? target)

/-- Does a record satisfy every predicate? They are asked in order up to the first that fails. -/
def allHold (item : Value) : List Predicate → Except QueryError Bool
  | [] => .ok true
  | p :: ps => do if ← p.holds item then allHold item ps else return false

end Predicate

/-! ## Sorting -/

/-- Does a sort key come before another when ascending? An absent key comes after all others;
nothing if two keys do not compare. -/
def keyBelow? (a b : Value) : Option Bool :=
  if a.isNull then some false
  else if b.isNull then some true
  else if a.same b then some false
  else a.below? b

/-- May the first key stand before the second, in a direction? -/
def keyLe (direction : Direction) (a b : Value) : Bool :=
  match direction with
  | .asc => keyBelow? b a != some true
  | .desc => keyBelow? a b != some true

/-- Do all keys compare with each other? -/
def keysCompare (keys : List Value) : Bool :=
  match keys with
  | [] => true
  | k :: rest =>
    rest.all (fun other => (keyBelow? k other).isSome && (keyBelow? other k).isSome)
      && keysCompare rest

/-- Do keys have one order, whichever pairs of them are compared? -/
def haveOrder (keys : List Value) : Bool := Value.allRanked keys && keysCompare keys

/-- Does a record come before another by its key? -/
def keyedBelow (a b : Value × Value) : Except QueryError Bool := orderOf (keyBelow? a.1 b.1)

/-- Sort records that are paired with keys. Where the keys have no order, the pairs that the sort
compares decide; a descending sort compares in the opposite sequence. -/
def sortKeyed (direction : Direction) (keyed : List (Value × Value)) :
    Except QueryError (List (Value × Value)) :=
  if haveOrder (keyed.map (·.1)) then .ok (keyed.mergeSort fun x y => keyLe direction x.1 y.1)
  else
    match direction with
    | .asc => Sorting.sort keyedBelow keyed
    | .desc => do return (← Sorting.sort keyedBelow keyed.reverse).reverse

/-- Sort records by one clause. Records with equal keys keep their order, in both directions. -/
def sortByClause (clause : Value × Direction) (items : List Value) :
    Except QueryError (List Value) := do
  let keyed ← items.mapM fun item => do return (← attributeOf clause.1 item, item)
  return (← sortKeyed clause.2 keyed).map (·.2)

/-! ## The collection -/

/-- Records in memory and a query over them. -/
structure Memory where
  items : List Value
  predicates : List Predicate := []
  ordering : List (Value × Direction) := []
  joins : List Value := []
  includes : List Value := []
  limit : Value := .null
  offset : Value := .null

namespace Memory

/-- A bound of the window has to be a whole number. -/
def wholeNumber (v : Value) : Except QueryError Int :=
  match v.wholeNumber? with
  | some i => .ok i
  | none => .error .wrongKind

/-- The first place of the window. -/
def start (m : Memory) : Except QueryError Int :=
  if m.offset.isTruthy then wholeNumber m.offset else .ok 0

/-- The place where the window ends, if it does. -/
def stop (m : Memory) : Except QueryError (Option Int) :=
  if m.limit.isNull then .ok none
  else do return some ((← m.start) + (← wholeNumber m.limit))

/-- The records that satisfy every predicate. -/
def matching (m : Memory) : Except QueryError (List Value) :=
  m.items.filterM fun item => Predicate.allHold item m.predicates

/-- The matching records in order: sorted by the last clause first, so that the first clause
decides and later ones break its ties. -/
def sorted (m : Memory) : Except QueryError (List Value) := do
  m.ordering.foldrM sortByClause (← m.matching)

/-- The records of the query. -/
def rows (m : Memory) : Except QueryError (List Value) := do
  let items ← m.sorted
  let start ← m.start
  let stop ← m.stop
  return Value.slice start stop items

/-- The number of matching records. -/
def size (m : Memory) : Except QueryError Int := do return (← m.matching).length

/-- The predicates of a narrowing call. -/
def predicatesOf (criteria : List Criterion) (equations : List (String × Value)) :
    List Predicate :=
  criteria.map .criterion ++ equations.map fun e => .equation e.1 e.2

/-- Keep the records that satisfy criteria and equations. -/
def restrict (criteria : List Criterion) (equations : List (String × Value)) (m : Memory) :
    Except QueryError Memory :=
  if usesReservedName equations then .error .wrongKind
  else .ok { m with predicates := m.predicates ++ predicatesOf criteria equations }

/-- The query that a call describes. -/
def perform : Call → Memory → Except QueryError Memory
  | .restrict criteria equations, m => m.restrict criteria equations
  | .compare name operator bound, m =>
    match Side.read? operator with
    | some side => .ok { m with predicates := m.predicates ++ [.beyond name side bound] }
    | none => .error (.invalidValue (.comparison operator))
  | .orderBy clauses, m => do
    return { m with ordering := m.ordering ++ (← clauses.mapM readClause) }
  | .reorder clauses, m => do return { m with ordering := ← clauses.mapM readClause }
  | .leftJoin paths, m => .ok { m with joins := m.joins ++ paths }
  | .includeRelated specs, m => .ok { m with includes := m.includes ++ specs }
  | .limit count, m => .ok { m with limit := count }
  | .offset count, m => .ok { m with offset := count }

/-- The first matching record that satisfies the equations too. -/
def findBy (criteria : List (String × Value)) (m : Memory) : Except QueryError Value := do
  let narrowed ← m.restrict [] criteria
  match ← narrowed.matching with
  | item :: _ => return item
  | [] => throw (.recordNotFound (criteria.map fun (k, v) => (.str k, v)) .null)

instance : Collection Memory where
  perform call m := .ofExcept (m.perform call)
  count m := .ofExcept m.size
  all m := .ofExcept m.rows
  findBy criteria m := .ofExcept (m.findBy criteria)
  holds m := .ofExcept do return !(← m.rows).isEmpty

end Memory

end ResourceQuery
