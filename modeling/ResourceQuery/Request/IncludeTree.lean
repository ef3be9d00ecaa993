import ResourceQuery.Request.Tokens

/-!
# The include parameter

Include paths such as `books.author,books.publisher` name relationships to load together with
a record. Read together they form a tree in which no two siblings have the same name: the two
paths above share the node `books`.

Headlines:
* **`IncludeTree.chainOf`**: the relationship names along one path.
* **`IncludeTree.insert`**: adds a tree to a forest, merging it into a sibling of that name.
* **`IncludeTree.readAll`**: the forest of a whole `include` parameter.
* **`IncludeTree.spec`**: a tree as a load specification, and `specs` those of a parameter.
-/

namespace ResourceQuery

open Text Request

/-- A relationship to load, and those to load from there on. -/
inductive IncludeTree where
  | node (relationship : String) (children : List IncludeTree)
deriving Repr, Inhabited

namespace IncludeTree

/-- The relationship at the root. -/
def relationship : IncludeTree → String
  | .node r _ => r

/-- The trees below the root. -/
def children : IncludeTree → List IncludeTree
  | .node _ cs => cs

/-! ## Paths -/

/-- The names along a path: the trimmed segments between its dots. A dot at the end does not
start another name. -/
def chainOf (path : String) : List String :=
  let names := (segments '.' (trimWith isBlankChar path.toList)).map (trimWith isBlankChar)
  let kept :=
    match names.reverse with
    | [] :: previous :: rest => (previous :: rest).reverse
    | _ => names
  kept.map String.ofList

/-- The tree without branches along a list of names. -/
def ofChain : List String → Option IncludeTree
  | [] => none
  | name :: rest => some (.node name (ofChain rest).toList)

/-- Read one path. -/
def parse (path : String) : IncludeTree :=
  (ofChain (chainOf path)).getD (.node "" [])

/-! ## Merging -/

/-- Change the first tree of a forest that satisfies a test. -/
def modifyFirst (p : IncludeTree → Bool) (f : IncludeTree → IncludeTree) :
    List IncludeTree → List IncludeTree
  | [] => []
  | t :: ts => if p t then f t :: ts else t :: modifyFirst p f ts

mutual

/-- Add a tree to a forest: its branches go to the tree of the same name if there is one. -/
def insert : IncludeTree → List IncludeTree → List IncludeTree
  | .node r cs, forest =>
    if forest.any (·.relationship == r) then
      modifyFirst (·.relationship == r) (fun t => .node t.relationship (insertAll cs t.children))
        forest
    else forest ++ [.node r cs]

/-- Add trees to a forest one after the other. -/
def insertAll : List IncludeTree → List IncludeTree → List IncludeTree
  | [], forest => forest
  | t :: ts, forest => insertAll ts (insert t forest)

end

/-- Add the branches of another tree, whatever its root is called. -/
def mergeChildren (t other : IncludeTree) : IncludeTree :=
  .node t.relationship (insertAll other.children t.children)

/-- Read a whole `include` parameter into a forest. -/
def readAll (raw : Value) : Except QueryError (List IncludeTree) :=
  (tokenList raw).map fun paths => insertAll (paths.map parse) []

/-! ## Load specifications -/

mutual

/-- A tree as a load specification: a bare name, a name with the specification of its only
branch, or a name with the list of those of its branches. -/
def spec : IncludeTree → Value
  | .node r [] => .str r
  | .node r [t] => .map [(.str r, spec t)]
  | .node r ts => .map [(.str r, .list (specsOf ts))]

/-- The load specifications of a forest. -/
def specsOf : List IncludeTree → List Value
  | [] => []
  | t :: ts => spec t :: specsOf ts

end

/-- The load specifications of an `include` parameter, in the order in which their roots are
first named. -/
def specs (raw : Value) : Except QueryError (List Value) := (readAll raw).map specsOf

@[simp] theorem insertAll_append (xs ys forest : List IncludeTree) :
    insertAll (xs ++ ys) forest = insertAll ys (insertAll xs forest) := by
  induction xs generalizing forest with
  | nil => rw [List.nil_append, insertAll]
  | cons x xs ih => rw [List.cons_append, insertAll, insertAll, ih]

end IncludeTree

end ResourceQuery
