import ResourceQuery.Sql.Statement
import ResourceQuery.Text.Segments
import ResourceQuery.Value.Demand

/-!
# Attribute paths in a statement

`address.city` names the column `city` of the records related by `address`. Following a path looks
up each part of it among the aliases that there are. Where there is none, the statement gets a join
and the path an alias, side by side; nothing else changes the one or the other.

Headlines:
* **`Statement.join`**: follows relationships and joins them.
* **`Statement.resolve`**: follows a whole path to an attribute.
-/

namespace ResourceQuery.Sql

/-- The relationships of a path and the name at its end. -/
def splitPath (path : String) : List String × String :=
  let names := Text.split '.' path
  (names.dropLast, names.getLastD "")

namespace Statement

variable {E : Type} [Schema E]

/-- Where following a path has led to so far: the aliases and the joins that there are by now, the
names followed, and the alias that they led to. -/
structure Position (E : Type) where
  aliases : List (List String × Alias E)
  joins : List (Join E)
  key : List String
  reached : Alias E

/-- Where following a path starts. -/
def start (s : Statement E) : Position E := ⟨s.aliases, s.joins, [], ⟨[], s.root⟩⟩

/-- Follow one relationship. -/
def follow (here : Position E) (name : String) : Except QueryError (Position E) :=
  let key := here.key ++ [name]
  match here.aliases.find? (·.1 == key) with
  | some (_, found) => .ok { here with key, reached := found }
  | none =>
    match Schema.relationship? here.reached.model name with
    | some r =>
      let made : Alias E := ⟨key, r.target⟩
      .ok {
        aliases := here.aliases ++ [(key, made)]
        joins := here.joins ++ [⟨here.reached.path, made.path, r⟩]
        key
        reached := made }
    | none => .error (.misconfigured (.notRelationship (Schema.name here.reached.model) name))

/-- Follow relationships from the root, joining each that has no alias yet. -/
def followAll (s : Statement E) (names : List String) : Except QueryError (Position E) :=
  names.foldlM follow s.start

/-- The statement with the aliases and the joins of a position. -/
def upTo (s : Statement E) (here : Position E) : Statement E :=
  { s with aliases := here.aliases, joins := here.joins }

/-- Join the relationships along a path. -/
def join (s : Statement E) (names : List String) : Except QueryError (Statement E) := do
  return s.upTo (← s.followAll names)

/-- The attribute of a name where a path has led to. -/
def Position.attribute? (here : Position E) (name : String) : Option (AttributeRef E) :=
  (Schema.attribute? here.reached.model name).map fun
    | .column c => .column ⟨here.reached.path, c⟩
    | .relationship r => .relationship here.reached.path r

/-- The attribute that a path leads to, and the statement with the joins on the way. -/
def resolve (s : Statement E) (path : Value) :
    Except QueryError (Statement E × AttributeRef E) := do
  let (relationships, name) := splitPath (← path.textFor "split")
  let here ← s.followAll relationships
  match here.attribute? name with
  | some target => return (s.upTo here, target)
  | none =>
    throw (.misconfigured (.unknownAttribute (Schema.name here.reached.model) name path))

end Statement

end ResourceQuery.Sql
