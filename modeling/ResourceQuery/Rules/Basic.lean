import ResourceQuery.OrderedMap
import ResourceQuery.Pagination.Details
import ResourceQuery.Rules.Condition

/-!
# The rule table of a query

What requests may filter and sort by, what breaks ties, what a request without a sort gets, and
how pages are made. A request is served by these rules alone: an attribute without a rule is
ignored by filters and refused by sorts.

Headlines:
* **`QueryRules`**: the table.
* **`QueryRules.findSort`**: the rule for a requested attribute. A rule for exactly this name
  wins over rules for names that start in a certain way.
* **`SortRule.apply`**: what the rule then does.
-/

namespace ResourceQuery

/-- A filter on an attribute. -/
structure FilterRule (C : Type) where
  name : String
  strategy : Strategy C
  /-- The request parameter that holds the query. -/
  parameter : String
  /-- Whether a blank query that is present filters for the absent value. -/
  allowNil : Bool
  /-- Conditions that all have to be met, in place of the query being present. -/
  guards : List Guard

/-- A sort by all attributes whose names start with a stem. -/
structure DynamicSortRule (C : Type) where
  stem : String
  strategy : Strategy C

/-- Does an attribute's name start with the stem? -/
def DynamicSortRule.accepts {C : Type} (r : DynamicSortRule C) (name : String) : Bool :=
  r.stem.toList.isPrefixOf name.toList

/-- The order of a collection for which no sort is requested. -/
inductive DefaultSort (C : Type) where
  | clauses (clauses : List OrderClause)
  | strategy (s : Strategy C)

/-- The rule table of a query. -/
structure QueryRules (C : Type) where
  filters : List (FilterRule C) := []
  sorts : OrderedMap (Strategy C) := .empty
  dynamicSorts : List (DynamicSortRule C) := []
  /-- The clauses after all others, which break ties. -/
  uniqueSort : List OrderClause := [⟨"id", .asc⟩]
  defaultSort : Option (DefaultSort C) := none
  paginator : Paginator := .page

/-- The rule for a requested attribute. -/
inductive SortRule (C : Type) where
  | static (name : String) (strategy : Strategy C)
  | dynamic (rule : DynamicSortRule C)

namespace SortRule

variable {C : Type}

/-- What is left of a name without the stem in front. -/
def withoutStem (stem name : String) : String :=
  String.ofList (name.toList.drop stem.toList.length)

/-- What the rule is asked for when a request names an attribute. -/
def task (requested : String) (direction : Direction) : SortRule C → Task
  | .static .. => .sort direction
  | .dynamic rule => .dynamicSort (withoutStem rule.stem requested) direction

/-- The strategy of the rule. -/
def strategy : SortRule C → Strategy C
  | .static _ s => s
  | .dynamic rule => rule.strategy

/-- Sort a collection by a requested attribute. -/
def apply (requested : String) (direction : Direction) (r : SortRule C)
    (collection : Selection C) : Traced (Selection C) :=
  r.strategy.apply (r.task requested direction) collection

end SortRule

namespace QueryRules

variable {C : Type}

/-- The rule for a requested attribute. -/
def findSort (rules : QueryRules C) (name : String) : Option (SortRule C) :=
  match rules.sorts.get? name with
  | some strategy => some (.static name strategy)
  | none => (rules.dynamicSorts.find? (·.accepts name)).map .dynamic

/-- May a request sort by this attribute? -/
def isSortPermitted (rules : QueryRules C) (name : String) : Bool := (rules.findSort name).isSome

end QueryRules

end ResourceQuery
