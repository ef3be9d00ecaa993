import ResourceQuery.Error
import ResourceQuery.Sql.Schema

/-!
# Load specifications over a schema

A load specification names relationships of a model and, below each of them, relationships of
the model it leads to. It stands for the set of paths whose records are loaded along.

Headlines:
* **`loadPaths`**: the paths that a specification names, each before the paths that go on
  from it.
* **`loadPathsOf`**: those of several specifications.
-/

namespace ResourceQuery.Sql

variable {E : Type} [Schema E]

/-- The relationship of a model that a value names. Only a text can be a name. -/
def namedRelationship (model : E) (name : Value) : Except QueryError (String × Relationship E) :=
  match name.text? with
  | none => .error .wrongKind
  | some text =>
    match Schema.relationship? model text with
    | some r => .ok (text, r)
    | none => .error (.misconfigured (.notRelationship (Schema.name model) name.plain))

mutual

/-- The paths that a specification names below a path that leads to `model`. -/
def loadPaths (model : E) (path : List String) : Value → Except QueryError (List (List String))
  | .map entries => loadPathsOfEntries model path entries
  | .list items => loadPathsOf model path items
  | .tuple items => loadPathsOf model path items
  | v =>
    if v.text?.isSome then do
      let (name, _) ← namedRelationship model v
      return [path ++ [name]]
    else .error (.misconfigured (.unreadableInclude v))

/-- The paths that several specifications name. -/
def loadPathsOf (model : E) (path : List String) :
    List Value → Except QueryError (List (List String))
  | [] => .ok []
  | item :: items => do
    let first ← loadPaths model path item
    return first ++ (← loadPathsOf model path items)

/-- The paths of relationships with specifications below them. -/
def loadPathsOfEntries (model : E) (path : List String) :
    List (Value × Value) → Except QueryError (List (List String))
  | [] => .ok []
  | (key, below) :: rest => do
    let (name, r) ← namedRelationship model key
    let nested ← loadPaths r.target (path ++ [name]) below
    return (path ++ [name]) :: nested ++ (← loadPathsOfEntries model path rest)

end

end ResourceQuery.Sql
