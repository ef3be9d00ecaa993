import ResourceQuery.Sql.Schema

/-!
# A sample schema

People with their addresses, their mentors and their books, and articles with an author and an
editor. The schema has what makes joins hard: a relationship of a model to itself, two
relationships to the same model, and one to many records.

Headlines:
* **`Entity`**: the models, mapped by an instance of `Schema`.
* **`Entity.sample`**: a small database.
-/

namespace ResourceQuery.Sql

/-- The models of the sample schema. -/
inductive Entity where
  | address | user | book | article
deriving Repr, DecidableEq

namespace Entity

/-- The name of a model. -/
def name : Entity → String
  | .address => "Address"
  | .user => "User"
  | .book => "Book"
  | .article => "Article"

/-- The table of a model. -/
def table : Entity → String
  | .address => "addresses"
  | .user => "users"
  | .book => "books"
  | .article => "articles"

/-- The model of a name. -/
def ofName? (text : String) : Option Entity :=
  [Entity.address, .user, .book, .article].find? (·.name == text)

/-- The column that identifies a record. -/
def key : Column := ⟨"id", .integer⟩

/-- The columns of a model. -/
def columns : Entity → List Column
  | .address => [key, ⟨"street", .text⟩, ⟨"city", .text⟩]
  | .user => [key, ⟨"first_name", .text⟩, ⟨"last_name", .text⟩, ⟨"age", .integer⟩,
      ⟨"address_id", .integer⟩, ⟨"mentor_id", .integer⟩]
  | .book => [key, ⟨"title", .text⟩, ⟨"user_id", .integer⟩]
  | .article => [key, ⟨"title", .text⟩, ⟨"author_id", .integer⟩, ⟨"editor_id", .integer⟩]

/-- A relationship to the one record that a column refers to. -/
def toOne (target : Entity) (column : String) : Relationship Entity :=
  ⟨target, ⟨column, .integer⟩, key, false⟩

/-- A relationship to all records that refer back by a column. -/
def toMany (target : Entity) (column : String) : Relationship Entity :=
  ⟨target, key, ⟨column, .integer⟩, true⟩

/-- The relationships of a model. -/
def relationships : Entity → List (String × Relationship Entity)
  | .address => []
  | .user => [("address", toOne .address "address_id"), ("mentor", toOne .user "mentor_id"),
      ("books", toMany .book "user_id")]
  | .book => [("user", toOne .user "user_id")]
  | .article => [("author", toOne .user "author_id"), ("editor", toOne .user "editor_id")]

instance : Schema Entity where
  name := name
  table := table
  columns := columns
  relationships := relationships

/-- A row of a model from its cells in the order of its columns. -/
def row (model : Entity) (cells : List Cell) : Row := (model.columns.map (·.name)).zip cells

/-- The cells of the sample database. -/
def cells : Entity → List (List Cell)
  | .address =>
    [[.int 1, .text "Main St", .text "Athens"],
     [.int 2, .text "Oak Ave", .text "Patras"],
     [.int 3, .text "Elm Rd", .text "Athens"]]
  | .user =>
    [[.int 1, .text "Jane", .text "Doe", .int 34, .int 1, .null],
     [.int 2, .text "John", .text "Doe", .int 41, .int 2, .int 1],
     [.int 3, .text "Alice", .text "Smith", .int 28, .int 1, .int 1],
     [.int 4, .text "Bob", .text "Brown", .null, .null, .int 2],
     [.int 5, .text "alice", .text "Smith", .int 28, .int 3, .int 4],
     [.int 6, .text "Émile", .text "O'Neil", .int 0, .int 2, .int 6]]
  | .book =>
    [[.int 1, .text "Dune", .int 1],
     [.int 2, .text "Emma", .int 1],
     [.int 3, .text "Ulysses", .int 3],
     [.int 4, .text "Dune", .int 6],
     [.int 5, .text "10% off", .int 2]]
  | .article =>
    [[.int 1, .text "Intro", .int 1, .int 2],
     [.int 2, .text "Review", .int 2, .int 1],
     [.int 3, .text "Notes", .int 3, .null],
     [.int 4, .text "Intro", .int 6, .int 6]]

/-- A small database. -/
def sample : Database Entity := ⟨fun model => (cells model).map (row model)⟩

end Entity

end ResourceQuery.Sql
