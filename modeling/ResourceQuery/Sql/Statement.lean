import ResourceQuery.Call
import ResourceQuery.Sql.Schema

/-!
# Select statements

A statement selects the records of one model. It is kept as data: the relationship paths that
it joins, its restrictions, its order and its window. Text and parameters are printed from the
data, so that no value that is compared ever stands in the text.

Headlines:
* **`Statement`**: the data.
* **`conditions`**: the restrictions that are written, without those that add nothing to others.
* **`Statement.sourceName`**: what a joined table is called. Each join has an alias of its own,
  numbered by table in the order of the joins.
* **`Statement.text`**, **`Statement.parameters`**: the printed statement, with a question mark
  for each parameter.

What is assumed of SQLAlchemy, which prints the statement:
* It lists the columns of the root in their order, and joins, conditions and order as they were
  added. Aliases without a name are numbered by table as they turn up.
* Of conditions that hold together it leaves out those that are true, and of any that are false it
  leaves one alone. Every other value that is compared becomes a parameter, where it stands.
* An alias that is read but not joined would become one more table behind `FROM`. That is not
  printed here: no statement reads such an alias (`JoinsOf.reads`).
-/

namespace ResourceQuery.Sql

/-- The alias of a joined table, known by the path that it was made for, with the model of its
records. The table of the root goes under the empty path. -/
structure Alias (E : Type) where
  path : List String
  model : E

/-- An outer join: the table under one alias, joined to that under another one by a
relationship. -/
structure Join (E : Type) where
  /-- The alias that is joined to. -/
  source : List String
  /-- The alias that is joined. -/
  path : List String
  relationship : Relationship E

/-- A column of a table under its alias. -/
structure ColumnRef where
  path : List String
  column : Column
deriving Repr, DecidableEq

/-- An attribute of a table under its alias. -/
inductive AttributeRef (E : Type) where
  | column (ref : ColumnRef)
  | relationship (path : List String) (relationship : Relationship E)

/-- A restriction of the rows. -/
inductive Restriction (E : Type) where
  /-- The comparison with a parameter. -/
  | compare (ref : ColumnRef) (op : ColumnOp) (operand : Value)
  /-- The column is null, or is not if `negated`. -/
  | null (ref : ColumnRef) (negated : Bool)
  /-- The column equals one or zero, or does not if `negated`. -/
  | flag (ref : ColumnRef) (negated value : Bool)
  /-- The column equals one of several parameters. -/
  | among (ref : ColumnRef) (operands : List Value)
  /-- The record under an alias has related ones, or has none if `negated`. -/
  | related (path : List String) (relationship : Relationship E) (negated : Bool)
  /-- The same for every row; null is never true. -/
  | constant (truth : Option Bool)

/-- A select statement, and the aliases that its collection keeps beside it. -/
structure Statement (E : Type) where
  root : E
  /-- The alias of each relationship path, where paths are looked up. -/
  aliases : List (List String × Alias E) := []
  /-- The joins of the statement itself, which are written. -/
  joins : List (Join E) := []
  restrictions : List (Restriction E) := []
  order : List (ColumnRef × Direction) := []
  limit : Option Int := none
  offset : Option Int := none
  /-- The relationship paths whose records are loaded along. -/
  loads : List (List String) := []

/-! ## Conditions -/

namespace Restriction

variable {E : Type}

/-- Is this restriction the same truth value for every row? -/
def isConstant (truth : Bool) : Restriction E → Bool
  | .constant (some b) => b == truth
  | _ => false

/-- The values that a restriction binds. -/
def operands : Restriction E → List Value
  | .compare _ _ operand => [operand]
  | .among _ operands => operands
  | .null .. | .flag .. | .related .. | .constant _ => []

end Restriction

/-- Restrictions as far as they matter: one that is false for every row makes the others idle, and
one that is true for every row adds nothing to others. -/
def conditions {E : Type} (restrictions : List (Restriction E)) : List (Restriction E) :=
  if restrictions.any (·.isConstant false) then [.constant (some false)]
  else
    let rest := restrictions.filter fun r => !r.isConstant true
    if rest.isEmpty then restrictions.take 1 else rest

/-! ## Text -/

/-- Comparison operators as they are written. -/
def operatorText : ColumnOp → String
  | .gt => ">"
  | .lt => "<"
  | .ge => ">="
  | .le => "<="
  | .eq => "="
  | .ne => "!="

/-- A direction as it is written. -/
def directionText : Direction → String
  | .asc => "ASC"
  | .desc => "DESC"

namespace Statement

variable {E : Type} [Schema E]

/-- The table of a join. -/
def tableOf (j : Join E) : String := Schema.table j.relationship.target

/-- The name of a table under its alias: the root's own, and a number behind that of each joined
one. -/
def sourceName (s : Statement E) (path : List String) : String :=
  match s.joins.find? (·.path == path) with
  | none => Schema.table s.root
  | some j =>
    let earlier := s.joins.takeWhile (·.path != path)
    tableOf j ++ "_" ++ toString ((earlier.filter (tableOf · == tableOf j)).length + 1)

/-- A column under the name of its table. -/
def columnText (s : Statement E) (path : List String) (name : String) : String :=
  s.sourceName path ++ "." ++ name

/-- A referenced column. -/
def refText (s : Statement E) (ref : ColumnRef) : String := s.columnText ref.path ref.column.name

/-- The condition of a join. The side that is referred to comes first. -/
def joinCondition (s : Statement E) (j : Join E) : String :=
  let own := s.columnText j.source j.relationship.own.name
  let other := s.columnText j.path j.relationship.other.name
  if j.relationship.toMany then own ++ " = " ++ other else other ++ " = " ++ own

/-- One join. -/
def joinText (s : Statement E) (j : Join E) : String :=
  " LEFT OUTER JOIN " ++ tableOf j ++ " AS " ++ s.sourceName j.path ++ " ON " ++ s.joinCondition j

/-- As many question marks as there are operands, or a list without rows for none. -/
def operandsText (operands : List Value) : String :=
  if operands.isEmpty then "SELECT 1 FROM (SELECT 1) WHERE 1!=1"
  else Value.commaList (operands.map fun _ => "?")

/-- The test for related records: a selection from their table, which is not joined. -/
def existsText (s : Statement E) (path : List String) (r : Relationship E) : String :=
  let table := Schema.table r.target
  "EXISTS (SELECT 1 FROM " ++ table ++ " WHERE " ++ s.columnText path r.own.name ++ " = " ++ table
    ++ "." ++ r.other.name ++ ")"

/-- A constant as it is written. -/
def constantText : Option Bool → String
  | some true => "1 = 1"
  | some false => "0 = 1"
  | none => "NULL"

/-- One restriction. -/
def restrictionText (s : Statement E) : Restriction E → String
  | .compare ref op _ => s.refText ref ++ " " ++ operatorText op ++ " ?"
  | .null ref negated => s.refText ref ++ (if negated then " IS NOT NULL" else " IS NULL")
  | .flag ref negated value =>
    s.refText ref ++ (if negated then " != " else " = ") ++ (if value then "1" else "0")
  | .among ref operands => s.refText ref ++ " IN (" ++ operandsText operands ++ ")"
  | .related path r negated =>
    if negated then "NOT (" ++ s.existsText path r ++ ")" else s.existsText path r
  | .constant truth => constantText truth

/-- One restriction of several: a test for related records stands in brackets. -/
def conjunctText (s : Statement E) : Restriction E → String
  | .related path r false => "(" ++ s.existsText path r ++ ")"
  | r => s.restrictionText r

/-- The restrictions that are written. -/
def conditionsText (s : Statement E) : List String :=
  match conditions s.restrictions with
  | [r] => [s.restrictionText r]
  | rs => rs.map s.conjunctText

/-- Parts behind a keyword, nothing if there are none. -/
def clauseText (keyword separator : String) (parts : List String) : String :=
  if parts.isEmpty then "" else " " ++ keyword ++ " " ++ separator.intercalate parts

/-- Does the statement have a window? -/
def hasWindow (s : Statement E) : Bool := s.limit.isSome || s.offset.isSome

/-- The text of the statement. -/
def text (s : Statement E) : String :=
  "SELECT " ++ Value.commaList ((Schema.columns s.root).map fun c => s.columnText [] c.name)
    ++ " FROM " ++ Schema.table s.root
    ++ String.join (s.joins.map s.joinText)
    ++ clauseText "WHERE" " AND " s.conditionsText
    ++ clauseText "ORDER BY" ", " (s.order.map fun (ref, direction) =>
      s.refText ref ++ " " ++ directionText direction)
    ++ (if s.hasWindow then " LIMIT ? OFFSET ?" else "")

/-- The parameters of the window. Without a limit it is minus one, without an offset zero. -/
def windowParameters (s : Statement E) : List Value :=
  if s.hasWindow then [.int (s.limit.getD (-1)), .int (s.offset.getD 0)] else []

/-- The values that the restrictions bind. -/
def operands (s : Statement E) : List Value := (conditions s.restrictions).flatMap (·.operands)

/-- The parameters of the statement in the order of the question marks. -/
def parameters (s : Statement E) : List Value := s.operands ++ s.windowParameters

end Statement

end ResourceQuery.Sql
