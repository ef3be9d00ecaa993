import ResourceQuery.Collection.Basic
import ResourceQuery.Number.Reading
import ResourceQuery.Sql.Evaluation
import ResourceQuery.Sql.LoadPath
import ResourceQuery.Sql.Path

/-!
# Collections in a database

A collection backed by a statement over a database. Calls change the statement; counting,
looking up and listing run it. A related attribute may be used wherever one of the model's own
may, and brings its joins along.

Headlines:
* **`TableQuery`**: the statement and the database that it runs on.
* **`TableQuery.perform`**: what each call does to the statement.
* **`restrictionFor`**: null, truth values and lists are compared in ways of their own, and
  relationships can only be absent or not.
-/

namespace ResourceQuery.Sql

open Number

/-- A statement and the database that it runs on. -/
structure TableQuery (E : Type) where
  database : Database E
  statement : Statement E

/-! ## Restrictions -/

/-- Comparison operators by their names. -/
def operatorName : ColumnOp → String
  | .gt => "gt"
  | .lt => "lt"
  | .ge => "ge"
  | .le => "le"
  | .eq => "eq"
  | .ne => "ne"

variable {E : Type}

/-- A comparison of a column. Null and truth values can only be equal or not. -/
def columnComparison (ref : ColumnRef) (op : ColumnOp) (operand : Value) :
    Except QueryError (Restriction E) :=
  match op, operand with
  | .eq, .null => .ok (.null ref false)
  | .ne, .null => .ok (.null ref true)
  | .eq, .bool b => .ok (.flag ref false b)
  | .ne, .bool b => .ok (.flag ref true b)
  | _, .null | _, .bool _ => .error .invalidArgument
  | op, v => .ok (.compare ref op v)

/-- Does a record have no related one, or has it one if `negated`? A single related record is known
by the record's own column. -/
def absence (path : List String) (r : Relationship E) (negated : Bool) : Restriction E :=
  if r.toMany then .related path r (!negated) else .null ⟨path, r.own⟩ negated

/-- A comparison of a relationship. It can only be absent or not. -/
def relationshipComparison (path : List String) (r : Relationship E) (op : ColumnOp)
    (operand : Value) : Except QueryError (Restriction E) :=
  match op, operand with
  | .eq, .null => .ok (absence path r false)
  | .ne, .null => .ok (absence path r true)
  | .eq, _ => .error (if r.toMany then .invalidRequest else .invalidArgument)
  | .ne, _ => .error (if r.toMany then .invalidRequest else .noAttribute)
  | op, _ => .error (.notImplemented (.comparison (operatorName op)))

/-- A comparison of an attribute. -/
def comparisonFor : AttributeRef E → ColumnOp → Value → Except QueryError (Restriction E)
  | .column ref => columnComparison ref
  | .relationship path r => relationshipComparison path r

/-- The restriction of an attribute to one of several values. -/
def membershipFor : AttributeRef E → List Value → Except QueryError (Restriction E)
  | .column ref, items => .ok (.among ref items)
  | .relationship .., _ => .error (.notImplemented .membership)

/-- The restriction of an attribute to a value, or to those of a list. -/
def restrictionFor (target : AttributeRef E) : Value → Except QueryError (Restriction E)
  | .list items | .tuple items | .set items => membershipFor target items
  | v => comparisonFor target .eq v

/-- The operators of bounds by their names. -/
def boundOperator (v : Value) : Except QueryError ColumnOp :=
  match v.text? with
  | some "gt" => .ok .gt
  | some "lt" => .ok .lt
  | _ => .error (.invalidValue (.comparison v))

/-! ## Windows -/

/-- Why a text is no bound of a window. -/
def boundFault (given : Value) : IntegerFault → ValueFault
  | .malformed => .notInteger given
  | .tooManyDigits digits => .tooManyDigits (some digits)

/-- A bound of the window: nothing, or a value that can be read as an integer. A double loses its
fraction. -/
def windowNumber (v : Value) : Except QueryError (Option Int) :=
  match v with
  | .null => .ok none
  | .float x =>
    match x.truncate? with
    | some i => .ok (some i)
    | none => .error .tooLarge
  | v =>
    match v.text?, v.wholeNumber? with
    | some s, _ => ((integerOf s).map some).mapError fun why => .invalidValue (boundFault v why)
    | none, some i => .ok (some i)
    | none, none => .error .wrongKind

namespace Statement

variable {E : Type} [Schema E]

/-- Add a restriction. -/
def restrict (s : Statement E) (r : Restriction E) : Statement E :=
  { s with restrictions := s.restrictions ++ [r] }

/-- A criterion: a comparison of an attribute of the root, or a constant. -/
def criterionFor (s : Statement E) : Criterion → Except QueryError (Restriction E)
  | .column name op operand =>
    match s.start.attribute? name with
    | some target => comparisonFor target op operand
    | none => .error .noAttribute
  | .given .null => .ok (.constant none)
  | .given (.bool b) => .ok (.constant (some b))
  | _ => .error .invalidArgument

/-- Add an equation. -/
def equate (s : Statement E) (equation : String × Value) : Except QueryError (Statement E) := do
  let (s, target) ← s.resolve (.str equation.1)
  return s.restrict (← restrictionFor target equation.2)

/-- Add criteria and then equations. -/
def narrow (s : Statement E) (criteria : List Criterion) (equations : List (String × Value)) :
    Except QueryError (Statement E) := do
  if usesReservedName equations then throw .wrongKind
  let restrictions ← criteria.mapM s.criterionFor
  equations.foldlM equate (restrictions.foldl restrict s)

/-- Keep the rows beyond a bound. -/
def bound (s : Statement E) (name operator operand : Value) : Except QueryError (Statement E) := do
  let op ← boundOperator operator
  let (s, target) ← s.resolve name
  return s.restrict (← comparisonFor target op operand)

/-- Add an order clause. Only a column can be sorted by. -/
def orderBy (s : Statement E) (clause : Value) : Except QueryError (Statement E) := do
  let (name, direction) ← unpackClause clause
  let (s, target) ← s.resolve name
  let direction ← handedDirection direction
  match target with
  | .column ref => return { s with order := s.order ++ [(ref, direction)] }
  | .relationship .. => throw (.notImplemented .ordering)

/-- Join the relationships along a path. -/
def joinPath (s : Statement E) (path : Value) : Except QueryError (Statement E) := do
  s.join (Text.split '.' (← path.textFor "split"))

/-- The names of the paths that have an alias in alphabetical order. -/
def joinNames (s : Statement E) : List String :=
  (s.aliases.map fun e => ".".intercalate e.1).mergeSort fun a b => !decide (b < a)

/-- The names of the loaded paths from the root in alphabetical order, each once. -/
def loadNames (s : Statement E) : List String :=
  (s.loads.map fun path => ".".intercalate (Schema.name s.root :: path)).eraseDups.mergeSort
    fun a b => !decide (b < a)

/-- What a call does to a statement. -/
def perform (s : Statement E) : Call → Except QueryError (Statement E)
  | .restrict criteria equations => s.narrow criteria equations
  | .compare name operator operand => s.bound name operator operand
  | .orderBy clauses => clauses.foldlM orderBy s
  | .reorder clauses => clauses.foldlM orderBy { s with order := [] }
  | .leftJoin paths => paths.foldlM joinPath s
  | .includeRelated specs => do
    return { s with loads := s.loads ++ (← loadPathsOf s.root [] specs) }
  | .limit count => do return { s with limit := ← windowNumber count }
  | .offset count => do return { s with offset := ← windowNumber count }

end Statement

namespace TableQuery

variable {E : Type} [Schema E]

/-- All records of a model. -/
def all (database : Database E) (model : E) : TableQuery E := ⟨database, { root := model }⟩

/-- The collection that a call describes. -/
def perform (call : Call) (q : TableQuery E) : Except QueryError (TableQuery E) := do
  return { q with statement := ← q.statement.perform call }

/-- The selected records. -/
def rows (q : TableQuery E) : Except QueryError (List Value) := do
  return (← q.statement.rows q.database).map Row.toValue

/-- The first record that satisfies the equations. -/
def findBy (criteria : List (String × Value)) (q : TableQuery E) : Except QueryError Value := do
  let narrowed ← q.statement.narrow [] criteria
  match ← { narrowed with limit := some 1 }.rows q.database with
  | row :: _ => return row.toValue
  | [] =>
    throw (.recordNotFound (criteria.map fun (k, v) => (.str k, v))
      (.str (Schema.name q.statement.root)))

instance : Collection (TableQuery E) where
  perform call q := .ofExcept (q.perform call)
  count q := .ofExcept (q.statement.count q.database)
  all q := .ofExcept q.rows
  findBy criteria q := .ofExcept (q.findBy criteria)
  holds _ := pure true

end TableQuery

end ResourceQuery.Sql
