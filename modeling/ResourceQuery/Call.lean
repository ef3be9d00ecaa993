import ResourceQuery.OrderClause

/-!
# Calls on a collection

What can be asked of a collection. Eight calls describe a further collection and run nothing:
they narrow it, order it, join and load related records, or set the window. Their arguments
come from declarations and requests and are values of any kind; each collection checks what
it needs to.

A call can also be written down as a method with positional and named arguments, in whatever
number. A collection reads such an invocation as a call if the arguments fit the method.

Headlines:
* **`Call`**: the eight calls.
* **`Invocation`**: a call as it is written down; **`Invocation.call`** reads it, and by
  **`Invocation.call_ofCall`** every call can be written down.
* **`Access`**: an invocation, or one of the three ways to run the query.
* **`readClause`**: an order clause as a collection is handed it.
-/

namespace ResourceQuery

/-- A comparison between a column and an operand. -/
inductive ColumnOp where
  | gt | lt | ge | le | eq | ne
deriving Repr, DecidableEq

/-- Does an outcome of a comparison satisfy an operator? -/
def ColumnOp.accepts : ColumnOp → Ordering → Bool
  | .gt, o => o == .gt
  | .lt, o => o == .lt
  | .ge, o => o != .lt
  | .le, o => o != .gt
  | .eq, o => o == .eq
  | .ne, o => o != .eq

/-- A condition in the collection's own terms. -/
inductive Criterion where
  /-- A test of a record. -/
  | test (holds : Value → Except QueryError Bool)
  /-- A comparison of a column of the records' own table. -/
  | column (name : String) (op : ColumnOp) (operand : Value)
  /-- A value that is no condition. -/
  | given (v : Value)

/-- A call that describes a further collection. -/
inductive Call where
  /-- Keep the records that satisfy every criterion and every equation of a path with a value. -/
  | restrict (criteria : List Criterion) (equations : List (String × Value))
  /-- Keep the records whose attribute is strictly above or below a bound. -/
  | compare (name operator bound : Value)
  /-- Append clauses to the ordering. -/
  | orderBy (clauses : List Value)
  /-- Replace the ordering. -/
  | reorder (clauses : List Value)
  /-- Join the relationships along each path. -/
  | leftJoin (paths : List Value)
  /-- Load related records along with each record. -/
  | includeRelated (specs : List Value)
  /-- Keep at most so many records. -/
  | limit (count : Value)
  /-- Skip so many records. -/
  | offset (count : Value)

namespace Call

/-- Append clauses to the ordering. -/
def orderByClauses (clauses : List OrderClause) : Call := .orderBy (clauses.map (·.toValue))

/-- Replace the ordering by clauses. -/
def reorderClauses (clauses : List OrderClause) : Call := .reorder (clauses.map (·.toValue))

end Call

/-! ## Calls as they are written down -/

/-- The methods by which a further collection is described. -/
inductive Method where
  | restrict | compare | orderBy | reorder | leftJoin | includeRelated | limit | offset
deriving Repr, DecidableEq

namespace Method

/-- The methods. -/
def all : List Method :=
  [.restrict, .compare, .orderBy, .reorder, .leftJoin, .includeRelated, .limit, .offset]

/-- The name of a method. -/
def name : Method → String
  | .restrict => "where"
  | .compare => "where_compare"
  | .orderBy => "order_by"
  | .reorder => "reorder"
  | .leftJoin => "left_join"
  | .includeRelated => "include_related"
  | .limit => "limit"
  | .offset => "offset"

/-- The method of a name. -/
def ofName? (text : String) : Option Method := all.find? (·.name == text)

@[simp] theorem ofName?_name (m : Method) : ofName? m.name = some m := by
  cases m <;> decide

end Method

/-- A criterion as a value; only a given value is one. -/
def Criterion.value : Criterion → Value
  | .given v => v
  | _ => .null

@[simp] theorem Criterion.value_given (v : Value) : (Criterion.given v).value = v := rfl

@[simp] theorem Criterion.map_value_map_given (vs : List Value) :
    (vs.map Criterion.given).map Criterion.value = vs := by
  induction vs with
  | nil => rfl
  | cons v vs ih => rw [List.map_cons, List.map_cons, ih, value_given]

/-- A call as it is written down. -/
structure Invocation where
  method : Method
  /-- The positional arguments. -/
  arguments : List Criterion
  named : List (String × Value) := []

/-- A name that no argument may have: it is the collection's own. -/
def reservedName : String := "self"

/-- Does a named argument use the reserved name? -/
def usesReservedName (named : List (String × Value)) : Bool :=
  named.any fun e => e.1 == reservedName

/-- The values of parameters: the positional ones in order, then each of the rest by its name.
None may be missing, given twice or left over. -/
def bindArguments (parameters : List String) (positional : List Value)
    (named : List (String × Value)) : Except QueryError (List Value) :=
  let rest := parameters.drop positional.length
  if parameters.length < positional.length || named.any fun e => !rest.contains e.1 then
    .error .wrongKind
  else
    match rest.mapM fun p => (named.find? (·.1 == p)).map (·.2) with
    | some values => .ok (positional ++ values)
    | none => .error .wrongKind

namespace Invocation

/-- A call, written down. -/
def ofCall : Call → Invocation
  | .restrict criteria equations => ⟨.restrict, criteria, equations⟩
  | .compare name operator bound => ⟨.compare, [.given name, .given operator, .given bound], []⟩
  | .orderBy clauses => ⟨.orderBy, clauses.map .given, []⟩
  | .reorder clauses => ⟨.reorder, clauses.map .given, []⟩
  | .leftJoin paths => ⟨.leftJoin, paths.map .given, []⟩
  | .includeRelated specs => ⟨.includeRelated, specs.map .given, []⟩
  | .limit count => ⟨.limit, [.given count], []⟩
  | .offset count => ⟨.offset, [.given count], []⟩

/-- The positional arguments as values. -/
def values (i : Invocation) : List Value := i.arguments.map (·.value)

/-- The values of a method that takes any number of positional arguments and no other. -/
def listed (i : Invocation) : Except QueryError (List Value) :=
  if i.named.isEmpty then .ok i.values else .error .wrongKind

/-- The value of a method that takes a single one. -/
def single (i : Invocation) : Except QueryError Value := do
  match ← bindArguments ["count"] i.values i.named with
  | [count] => return count
  | _ => throw .wrongKind

/-- The call that is written down, if its arguments fit the method. -/
def call (i : Invocation) : Except QueryError Call :=
  match i.method with
  | .restrict => .ok (.restrict i.arguments i.named)
  | .compare => do
    match ← bindArguments ["attribute", "operator", "value"] i.values i.named with
    | [name, operator, bound] => return .compare name operator bound
    | _ => throw .wrongKind
  | .orderBy => i.listed.map .orderBy
  | .reorder => i.listed.map .reorder
  | .leftJoin => i.listed.map .leftJoin
  | .includeRelated => i.listed.map .includeRelated
  | .limit => i.single.map .limit
  | .offset => i.single.map .offset

theorem call_ofCall (c : Call) : (ofCall c).call = .ok c := by
  cases c <;>
    simp [ofCall, call, listed, single, values, bindArguments, -List.map_map,
      bind, Except.bind, pure, Except.pure, Except.map]

end Invocation

/-- Anything that can be asked of a collection. -/
inductive Access where
  | apply (invocation : Invocation)
  | count
  | all
  | findBy (criteria : List (String × Value))

/-! ## Order clauses as they are handed over -/

/-- The two parts of an order clause. -/
def unpackClause (clause : Value) : Except QueryError (Value × Value) :=
  match clause.items? with
  | some items => ofItems items
  | none => .error .wrongKind
where
  /-- Exactly two items are an attribute and a direction. -/
  ofItems : List Value → Except QueryError (Value × Value)
    | [a, d] => .ok (a, d)
    | [] => .error (.invalidValue (.clauseTooShort 0))
    | [_] => .error (.invalidValue (.clauseTooShort 1))
    | _ => .error (.invalidValue .clauseTooLong)

/-- A direction that a collection is handed. -/
def handedDirection (v : Value) : Except QueryError Direction :=
  match Direction.read? v with
  | some d => .ok d
  | none => .error (.invalidValue (.direction v))

/-- An order clause that a collection is handed. -/
def readClause (v : Value) : Except QueryError (Value × Direction) := do
  let (a, d) ← unpackClause v
  return (a, ← handedDirection d)

theorem readClause_toValue (c : OrderClause) :
    readClause c.toValue = .ok (.str c.name, c.direction) := by
  simp [readClause, OrderClause.toValue, unpackClause, unpackClause.ofItems, Value.items?,
    handedDirection, bind, Except.bind, pure, Except.pure]

end ResourceQuery
