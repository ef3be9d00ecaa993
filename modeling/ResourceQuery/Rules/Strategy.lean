import ResourceQuery.Collection.Basic

/-!
# Strategies

A strategy says what a filter or a sort does to a collection. It is a function of the
collection and of what is asked for, or a class whose objects are built from these and then
give the resulting collection. A class may also carry checks, by which conditions on filters
are stated, and constants.

Headlines:
* **`Task`**: what a strategy is asked for, with `Task.arguments` as it is handed over.
* **`StrategyClass`**: a class; **`StrategyClass.member?`** what a name means for it.
* **`StrategyObject`**: an object of a class. What it was built from hides members of the class.
* **`StrategyObject.method?`**: what calling a method comes to.
* **`Strategy`**: function or class. `Strategy.apply` does the task.
* **`Strategy.equality`**, **`Strategy.byName`**: what filters and sorts do if nothing else
  is declared.
-/

namespace ResourceQuery

/-- What a strategy is asked to do with a collection. -/
inductive Task where
  | filter (query : Value)
  | sort (direction : Direction)
  /-- Sort by an attribute that was found by the start of its name. -/
  | dynamicSort (name : String) (direction : Direction)
  | defaultSort
deriving Repr

/-- What a strategy is handed beside the collection, in order. -/
def Task.arguments : Task → List Value
  | .filter query => [query]
  | .sort direction => [direction.toValue]
  | .dynamicSort name direction => [.str name, direction.toValue]
  | .defaultSort => []

/-! ## Classes -/

/-- What the objects of a class are built from. -/
inductive ClassShape where
  /-- A query. -/
  | filter
  /-- A direction. -/
  | sort
  /-- An attribute and a direction, which is ascending if it is left out. -/
  | dynamicSort
  /-- Anything, of which nothing is kept; such a class has no result unless it defines one. -/
  | plain
deriving Repr, DecidableEq

/-- The name under which an object holds its collection. -/
def collectionName : String := "collection"

/-- The name under which an object holds its query. -/
def queryName : String := "query"

/-- The name under which an object holds its direction. -/
def directionName : String := "direction"

/-- The name under which an object holds the attribute to sort by. -/
def attributeName : String := "dynamic_attribute"

/-- The name of the method that gives the resulting collection. -/
def resultsName : String := "results"

/-- What an object of a class keeps of the arguments that are handed over, if they are as many
as the class takes. -/
def ClassShape.accept? : ClassShape → List Value → Option (List (String × Value))
  | .filter, [query] => some [(queryName, query)]
  | .sort, [direction] => some [(directionName, direction)]
  | .dynamicSort, [name] =>
    some [(attributeName, name), (directionName, Direction.asc.toValue)]
  | .dynamicSort, [name, direction] => some [(attributeName, name), (directionName, direction)]
  | .plain, _ => some []
  | _, _ => none

/-- What the gaps in a script are filled with. -/
structure Arguments where
  query : Value := .null
  name : Value := .null
  direction : Value := .null
deriving Repr

/-- What a name means for a class whose objects work on collections of type `C`. -/
inductive Member (C : Type) where
  /-- The method that gives the resulting collection. -/
  | results (run : Arguments → Selection C → Traced (Selection C))
  /-- The method for the result as it is before a class defines one: it fails. -/
  | outline
  /-- A method that answers for the query of the object. -/
  | check (answer : Value → Except QueryError Value)
  /-- An attribute that is no method. -/
  | constant (v : Value)

/-- A class of filters or sorts. -/
structure StrategyClass (C : Type) where
  name : String
  shape : ClassShape
  /-- The resulting collection, if the class defines it. -/
  body? : Option (Arguments → Selection C → Traced (Selection C))
  /-- The checks of a query by their names. -/
  checks : List (String × (Value → Except QueryError Value))
  /-- The attributes that are no methods. -/
  constants : List (String × Value)

namespace StrategyClass

variable {C : Type}

/-- What the class itself defines under a name that is not that of its result: a check goes
before a constant. -/
def ownMember? (c : StrategyClass C) (name : String) : Option (Member C) :=
  match c.checks.find? (·.1 == name) with
  | some (_, answer) => some (.check answer)
  | none => (c.constants.find? (·.1 == name)).map fun e => .constant e.2

/-- What the class has where it does not define a result. -/
def inherited? (c : StrategyClass C) : Option (Member C) :=
  if c.shape = .plain then none else some .outline

/-- What a name means for the class. -/
def member? (c : StrategyClass C) (name : String) : Option (Member C) :=
  if name = resultsName then
    (c.body?.map .results).or ((c.ownMember? name).or c.inherited?)
  else c.ownMember? name

/-- Does the class have a member of this name? -/
def hasMember (c : StrategyClass C) (name : String) : Bool := (c.member? name).isSome

end StrategyClass

/-! ## Objects -/

/-- An object of a class, built from a collection and what it keeps of its arguments. -/
structure StrategyObject (C : Type) where
  cls : StrategyClass C
  fields : List (String × Value)
  collection : Selection C

namespace StrategyObject

variable {C : Type}

/-- Does the object itself hold something under a name? -/
def holdsField (o : StrategyObject C) (name : String) : Bool :=
  name == collectionName || o.fields.any (·.1 == name)

/-- What an attribute is worth: what the object holds, or else the constant of its class. A
check that is not called is worth no more than an object without attributes, and an attribute
that is nowhere is absent. -/
def get (o : StrategyObject C) (name : String) : Value :=
  match o.fields.find? (·.1 == name), o.cls.ownMember? name with
  | some (_, v), _ => v
  | none, some (.constant v) => v
  | none, some _ => .record []
  | none, none => .null

/-- What the gaps in the script of the result are filled with. -/
def arguments (o : StrategyObject C) : Arguments :=
  ⟨o.get queryName, o.get attributeName, o.get directionName⟩

/-- What calling a method of the object comes to, nothing if the name is not that of a method. -/
def method? (o : StrategyObject C) (name : String) : Option (Traced (Selection C)) :=
  if o.holdsField name then none
  else
    match o.cls.member? name with
    | some (.results run) => some (run o.arguments o.collection)
    | some .outline => some (.fail (.notImplemented (.results o.cls.name)))
    | some (.check answer) =>
      some (.ofExcept ((answer (o.get queryName)).map Selection.given))
    | some (.constant _) | none => none

/-- The resulting collection. -/
def results (o : StrategyObject C) : Traced (Selection C) :=
  match o.method? resultsName with
  | some result => result
  | none => if o.cls.hasMember resultsName then .fail .wrongKind else .fail .noAttribute

end StrategyObject

/-- Build an object. -/
def StrategyClass.build {C : Type} (c : StrategyClass C) (collection : Selection C)
    (arguments : List Value) : Except QueryError (StrategyObject C) :=
  match c.shape.accept? arguments with
  | some fields => .ok ⟨c, fields, collection⟩
  | none => .error .wrongKind

/-! ## Strategies -/

/-- A way to filter or sort a collection. -/
inductive Strategy (C : Type) where
  /-- A function, with the label under which it is logged. -/
  | function (label : String) (run : Task → Selection C → Traced (Selection C))
  | cls (c : StrategyClass C)

/-- What may stand where a strategy is declared. -/
inductive Declared (C : Type) where
  | strategy (s : Strategy C)
  | value (v : Value)
  /-- What is made a strategy ahead of the declaration, under a name of its own. -/
  | resolved (name : String) (given : Declared C)

namespace Strategy

variable {C : Type}

/-- The label under which a strategy is logged. -/
def label : Strategy C → String
  | .function label _ => label
  | .cls c => c.name

/-- A strategy as messages write it. -/
def literal : Strategy C → String
  | .function label _ => "CallableStrategy(fn=<function " ++ label ++ ">)"
  | .cls c => "FactoryStrategy(factory=<class '__main__." ++ c.name ++ "'>)"

/-- Do a task with a collection. -/
def apply (s : Strategy C) (task : Task) (collection : Selection C) : Traced (Selection C) :=
  match s with
  | .function _ run => run task collection
  | .cls c => do (← Traced.ofExcept (c.build collection task.arguments)).results

/-- Keep the records whose attribute equals the query. -/
def equality [Collection C] (name : String) : Strategy C :=
  .function "_equality_filter.<locals>.apply" fun task c =>
    match task with
    | .filter query => Collection.perform (.restrict [] [(name, query)]) c
    | _ => .fail .wrongKind

/-- Order the records by the attribute. -/
def byName [Collection C] (name : String) : Strategy C :=
  .function "_attribute_sort.<locals>.apply" fun task c =>
    match task with
    | .sort direction => Collection.perform (.orderByClauses [⟨name, direction⟩]) c
    | _ => .fail .wrongKind

end Strategy

/-- The strategy that is declared for `name`. -/
def Declared.toStrategy {C : Type} (name : String) : Declared C → Except QueryError (Strategy C)
  | .strategy s => .ok s
  | .value v => .error (.misconfigured (.strategyShape name v))
  | .resolved own given => given.toStrategy own

end ResourceQuery
