import ResourceQuery.Sql.Cell

/-!
# Mapped schemas

A schema maps models to tables. A model has columns, and relationships to other models: one
to a single record that a column of the model refers to, or one to all the records that refer
to it.

Headlines:
* **`Schema`**: the models of a program and how they are mapped.
* **`Relationship`**: two models and the two columns that have to agree.
* **`Attribute`**: a column or a relationship.
* **`Database`**: the rows of every model.

Out of scope:
* What else the class of a model has, such as its `metadata`. A path that names it is refused like
  any other name that is neither a column nor a relationship.
* Names that have to be quoted: keywords, capitals, blanks. All names are written as they are.
* What the database allows at most: joins, parameters, the length of a text, the depth of a
  condition.
-/

namespace ResourceQuery.Sql

/-- A column of a table. -/
structure Column where
  name : String
  affinity : Affinity
deriving Repr, DecidableEq

/-- A relationship of a model to the model `target`. Records are related if the column `own` of
the one agrees with the column `other` of the other. -/
structure Relationship (E : Type) where
  target : E
  own : Column
  other : Column
  /-- Whether a record may be related to several others. -/
  toMany : Bool
deriving Repr, DecidableEq

/-- What a model has under a name. -/
inductive Attribute (E : Type) where
  | column (c : Column)
  | relationship (r : Relationship E)
deriving Repr

/-- How models are mapped. -/
class Schema (E : Type) where
  /-- The name of a model. -/
  name : E → String
  /-- The table that holds its records. -/
  table : E → String
  columns : E → List Column
  /-- Its relationships by their names. -/
  relationships : E → List (String × Relationship E)

namespace Schema

variable {E : Type} [Schema E]

/-- The column of a name. -/
def column? (model : E) (name : String) : Option Column :=
  (columns model).find? (·.name == name)

/-- The relationship of a name. -/
def relationship? (model : E) (name : String) : Option (Relationship E) :=
  ((relationships model).find? (·.1 == name)).map (·.2)

/-- The attribute of a name: a column, or else a relationship. -/
def attribute? (model : E) (name : String) : Option (Attribute E) :=
  ((column? model name).map .column).or ((relationship? model name).map .relationship)

end Schema

/-! ## Contents -/

/-- The cells of a row by their columns. -/
abbrev Row := List (String × Cell)

/-- The cell of a column, null if the row has none. -/
def Row.cell (row : Row) (name : String) : Cell :=
  ((row.find? (·.1 == name)).map (·.2)).getD .null

/-- A row as a record. -/
def Row.toValue (row : Row) : Value := .record (row.map fun (name, cell) => (name, cell.toValue))

/-- The rows of every model. -/
structure Database (E : Type) where
  rows : E → List Row

end ResourceQuery.Sql
