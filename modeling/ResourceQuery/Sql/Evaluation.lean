import ResourceQuery.Number.Arithmetic
import ResourceQuery.Sql.Statement

/-!
# Running a statement

The rows that a statement selects from a database. A row of the root is extended by the
related rows of each join, or by nothing if there are none, so an outer join loses no row.
Restrictions keep the rows for which they are true; a comparison with null never is. The
order is stable, and the window comes last.

Before a statement runs its parameters are bound. Those of a list have to be of the kind of its
first one if that is a truth value or a double.

Headlines:
* **`JoinedRow`**: a row with the related rows of the joins.
* **`extend`**: one outer join; by **`extend_ne_nil`** it loses no row.
* **`Restriction.holds`**: the meaning of a restriction; by **`all_conditions`** the restrictions
  that are not written change nothing.
* **`Restriction.prepared`**, **`bindParameter`**: what is bound, or why it cannot be.
* **`Statement.rows`**, **`Statement.count`**: what a statement selects, and how many rows that
  is without its window.

What is assumed of SQLite, which runs the statement:
* Null compares with nothing and is below everything when sorted; texts are above numbers, and
  compare by code points. A column converts what it is compared with by its affinity.
* A negative limit is none, and a negative offset zero.
* Rows that tie stay in the order of the table. SQLite leaves that open, so what is proved of an
  order asks for a key among its columns.

What is assumed of SQLAlchemy: the operands of a list are converted to the kind of the first, if
that is a truth value or a double, before anything is bound.
-/

namespace ResourceQuery.Sql

open Number

/-- The row that each path leads to, if there is one. -/
abbrev JoinedRow := List (List String × Option Row)

namespace JoinedRow

/-- The cell of a column of the table that a path leads to, null if no row is there. -/
def cell (row : JoinedRow) (path : List String) (name : String) : Cell :=
  match row.find? (·.1 == path) with
  | some (_, some r) => r.cell name
  | _ => .null

/-- The cell of a referenced column. -/
def value (row : JoinedRow) (ref : ColumnRef) : Cell := row.cell ref.path ref.column.name

/-- The row of the root. -/
def root (row : JoinedRow) : Option Row := (row.find? (·.1 == [])).bind (·.2)

end JoinedRow

variable {E : Type}

/-- The rows that a relationship relates to a cell. -/
def relatedTo (db : Database E) (r : Relationship E) (key : Cell) : List Row :=
  (db.rows r.target).filter fun other => key.compare? (other.cell r.other.name) == some .eq

/-- The rows that a join relates to a row. -/
def related (db : Database E) (j : Join E) (row : JoinedRow) : List Row :=
  relatedTo db j.relationship (row.cell j.source j.relationship.own.name)

/-- One outer join. -/
def extend (db : Database E) (j : Join E) (row : JoinedRow) : List JoinedRow :=
  match related db j row with
  | [] => [row ++ [(j.path, none)]]
  | rows => rows.map fun r => row ++ [(j.path, some r)]

theorem extend_ne_nil (db : Database E) (j : Join E) (row : JoinedRow) : extend db j row ≠ [] := by
  unfold extend
  split
  · simp
  · next hne => simpa using hne

/-! ## Parameters -/

/-- A parameter among truth values: one that equals zero or one. -/
def truthParameter (v : Value) : Except QueryError Value :=
  if v.isNull then .ok .null
  else if Value.sameNumber v (.bool true) then .ok (.int 1)
  else if Value.sameNumber v (.bool false) then .ok (.int 0)
  else .error .unfitParameter

/-- A parameter as a double. A text is read, and an integer is rounded. -/
def double? (v : Value) : Option Binary64 :=
  match v.text?, v.wholeNumber? with
  | some s, _ => readDecimal s
  | none, some i => Binary64.nearestInt? i
  | none, none => v.number?

/-- A parameter among doubles. -/
def doubleParameter (v : Value) : Except QueryError Value :=
  if v.isNull then .ok .null
  else
    match double? v with
    | some x => .ok (.float x)
    | none => .error .unfitParameter

/-- A parameter of a list, made like the first one. -/
def parameterLike : Option Value → Value → Except QueryError Value
  | some (.bool _), v => truthParameter v
  | some (.float _), v => doubleParameter v
  | _, v => .ok v

/-- A restriction with its operands as they are bound. -/
def Restriction.prepared : Restriction E → Except QueryError (Restriction E)
  | .among ref operands => do
    return .among ref (← operands.mapM (parameterLike operands.head?))
  | r => .ok r

/-- Why a value has no cell. -/
def bindingFault : Value → QueryError
  | .loose t => .unencodable t
  | _ => .unsupportedParameter

/-- A parameter as it is bound. Integers have to fit into 64 bits. -/
def bindParameter (v : Value) : Except QueryError Cell :=
  match v.wholeNumber?, Cell.ofValue? v with
  | some i, some c => if isStorable i then .ok c else .error .tooLarge
  | none, some c => .ok c
  | _, none => .error (bindingFault v)

/-- The cell of a parameter that can be bound. -/
def operandCell (v : Value) : Cell := (Cell.ofValue? v).getD .null

/-! ## Restrictions -/

/-- Is the comparison of a column with an operand true? -/
def comparisonHolds (row : JoinedRow) (ref : ColumnRef) (op : ColumnOp) (operand : Cell) : Bool :=
  ((row.value ref).compare? (ref.column.affinity.convert operand)).any op.accepts

/-- Is a restriction true of a row? -/
def Restriction.holds (db : Database E) (row : JoinedRow) : Restriction E → Bool
  | .compare ref op operand => comparisonHolds row ref op (operandCell operand)
  | .null ref negated => (row.value ref == .null) != negated
  | .flag ref negated value =>
    comparisonHolds row ref (if negated then .ne else .eq) (.int (if value then 1 else 0))
  | .among ref operands => operands.any fun v => comparisonHolds row ref .eq (operandCell v)
  | .related path r negated => (relatedTo db r (row.cell path r.own.name)).isEmpty == negated
  | .constant truth => truth == some true

theorem holds_of_isConstant {db : Database E} {row : JoinedRow} {truth : Bool} {r : Restriction E}
    (h : r.isConstant truth = true) : r.holds db row = truth := by
  unfold Restriction.isConstant at h
  split at h
  · rw [beq_iff_eq.mp h]
    cases truth <;> rfl
  · exact absurd h Bool.false_ne_true

/-- Dropping the restrictions that are true for every row changes nothing. -/
theorem all_filter_not_isConstant (db : Database E) (row : JoinedRow) (rs : List (Restriction E)) :
    (rs.filter fun r => !r.isConstant true).all (·.holds db row) = rs.all (·.holds db row) := by
  induction rs with
  | nil => rfl
  | cons r rs ih =>
    cases h : r.isConstant true with
    | true => simp [h, ih, holds_of_isConstant h]
    | false => simp [h, ih]

/-- The restrictions that are not written change nothing. -/
theorem all_conditions (db : Database E) (row : JoinedRow) (rs : List (Restriction E)) :
    (conditions rs).all (·.holds db row) = rs.all (·.holds db row) := by
  unfold conditions
  split
  · next h =>
    obtain ⟨r, hr, hc⟩ := List.any_eq_true.mp h
    have : rs.all (·.holds db row) = false :=
      List.all_eq_false.mpr ⟨r, hr, by rw [holds_of_isConstant hc]; exact Bool.false_ne_true⟩
    rw [this]
    rfl
  · simp only
    split
    · next h =>
      have hall : rs.all (·.holds db row) = true := by
        rw [← all_filter_not_isConstant, List.isEmpty_iff.mp h]
        rfl
      rw [hall]
      exact List.all_eq_true.mpr fun r hr =>
        List.all_eq_true.mp hall r (List.mem_of_mem_take hr)
    · exact all_filter_not_isConstant db row rs

/-! ## Order -/

/-- Compare two rows by one clause. -/
def comparePlaces (clause : ColumnRef × Direction) (a b : JoinedRow) : Ordering :=
  let order := (a.value clause.1).place (b.value clause.1)
  match clause.2 with
  | .asc => order
  | .desc => order.swap

/-- Compare two rows by the first clause in which they differ. -/
def compareRows (order : List (ColumnRef × Direction)) (a b : JoinedRow) : Ordering :=
  match order with
  | [] => .eq
  | clause :: rest => (comparePlaces clause a b).then (compareRows rest a b)

namespace Statement

/-! ## Steps -/

/-- The rows of the root with those of all joins. -/
def joined (s : Statement E) (db : Database E) : List JoinedRow :=
  s.joins.foldl (fun rows j => rows.flatMap (extend db j))
    ((db.rows s.root).map fun row => [([], some row)])

/-- The rows of which all restrictions are true. -/
def restricted (s : Statement E) (db : Database E) : List JoinedRow :=
  (s.joined db).filter fun row => s.restrictions.all (·.holds db row)

/-- The rows in order. -/
def ordered (s : Statement E) (db : Database E) : List JoinedRow :=
  (s.restricted db).mergeSort fun a b => (compareRows s.order a b).isLE

/-- The rows of a window. A negative limit is none, and a negative offset zero. -/
def cut {α : Type} (limit offset : Option Int) (rows : List α) : List α :=
  let rest := rows.drop (offset.getD 0).toNat
  match limit with
  | some n => if n < 0 then rest else rest.take n.toNat
  | none => rest

/-- The statement with its operands as they are bound. -/
def prepared (s : Statement E) : Except QueryError (Statement E) := do
  return { s with restrictions := ← (conditions s.restrictions).mapM Restriction.prepared }

/-- The root rows that the statement selects. -/
def rows [Schema E] (s : Statement E) (db : Database E) : Except QueryError (List Row) := do
  let s ← s.prepared
  let _ ← s.parameters.mapM bindParameter
  return (cut s.limit s.offset (s.ordered db)).filterMap (·.root)

/-- The number of rows that the statement selects without its window. -/
def count (s : Statement E) (db : Database E) : Except QueryError Int := do
  let s ← s.prepared
  let _ ← s.operands.mapM bindParameter
  return (s.restricted db).length

end Statement

end ResourceQuery.Sql
