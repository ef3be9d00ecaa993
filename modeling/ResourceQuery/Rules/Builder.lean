import ResourceQuery.Rules.Basic

/-!
# Declaring rules

Rules are declared one after the other. A declaration that fails leaves what was declared
before as it was. Declaring a filter or a sort again replaces it and keeps its place, since
filters run in the order of their first declaration; declaring a dynamic sort again moves it
to the end.

Headlines:
* **`Declaration`**: the six declarations.
* **`RulesBuilder.declare`**: what each of them does.
* **`RulesBuilder.build`**: the table of everything declared so far, and
  **`RulesBuilder.ofRules`** the way back.
-/

namespace ResourceQuery

/-- What a filter declaration may add. -/
structure FilterOptions where
  /-- The request parameter; the attribute itself if none is named. -/
  parameter : Option String := none
  allowNil : Bool := false
  /-- Filter only if this holds. -/
  onlyIf : Option GivenCondition := none
  /-- Filter only if this does not hold. -/
  unlessIf : Option GivenCondition := none

/-- A declaration of a rule. -/
inductive Declaration (C : Type) where
  | filtersBy (name : String) (strategy : Option (Declared C)) (options : FilterOptions)
  | sortsBy (name : String) (strategy : Option (Declared C))
  | dynamicallySortsBy (stem : String) (strategy : Option (Declared C))
  | uniqueSort (orderings : List Value)
  | defaultSort (given : Declared C)
  | paginatesWith (paginator : Paginator)

/-- The rules declared so far. -/
structure RulesBuilder (C : Type) where
  filters : OrderedMap (FilterRule C)
  sorts : OrderedMap (Strategy C)
  dynamicSorts : OrderedMap (Strategy C)
  uniqueSort : List OrderClause
  defaultSort : Option (DefaultSort C)
  paginator : Paginator

namespace RulesBuilder

variable {C : Type}

/-- Go on from a table. -/
def ofRules (rules : QueryRules C) : RulesBuilder C where
  filters := .ofList (rules.filters.map fun r => (r.name, r))
  sorts := rules.sorts
  dynamicSorts := .ofList (rules.dynamicSorts.map fun r => (r.stem, r.strategy))
  uniqueSort := rules.uniqueSort
  defaultSort := rules.defaultSort
  paginator := rules.paginator

/-- The table of the rules declared so far. -/
def build (b : RulesBuilder C) : QueryRules C where
  filters := b.filters.values
  sorts := b.sorts
  dynamicSorts := b.dynamicSorts.entries.map fun e => ⟨e.1, e.2⟩
  uniqueSort := b.uniqueSort
  defaultSort := b.defaultSort
  paginator := b.paginator

/-- The strategy that is declared for `name`, or else the usual one. -/
def strategyOr (usual : Strategy C) (name : String) :
    Option (Declared C) → Except QueryError (Strategy C)
  | none => .ok usual
  | some given => given.toStrategy name

/-- The guard for a declared condition, if one is declared. -/
def guardOf (name : String) (strategy : Strategy C) (expected : Bool) :
    Option GivenCondition → Except QueryError (List Guard)
  | none => .ok []
  | some given => do return [⟨← given.toCondition name strategy, expected⟩]

/-- The request parameter of a filter. -/
def parameterOr (name : String) : Option String → String
  | none | some "" => name
  | some parameter => parameter

/-- The rule that a filter declaration states. -/
def filterRule [Collection C] (name : String) (strategy : Option (Declared C))
    (options : FilterOptions) : Except QueryError (FilterRule C) := do
  let strategy ← strategyOr (.equality name) name strategy
  let required ← guardOf name strategy true options.onlyIf
  let excluded ← guardOf name strategy false options.unlessIf
  return {
    name
    strategy
    parameter := parameterOr name options.parameter
    allowNil := options.allowNil
    guards := required ++ excluded
  }

/-- The strategy of a dynamic sort, which has none to fall back on. -/
def dynamicStrategy (stem : String) : Option (Declared C) → Except QueryError (Strategy C)
  | none => .error (.misconfigured (.dynamicSortWithoutStrategy stem))
  | some given => given.toStrategy stem

/-- The clauses that break ties. At least one ordering has to be given. -/
def uniqueClauses (orderings : List Value) : Except QueryError (List OrderClause) :=
  if orderings.isEmpty then .error (.misconfigured .noUniqueSort) else normalizeAll orderings

/-- The default sort that a declaration states. What is no function and no class is read as an
ordering, and so is a strategy that is made already, which never is one. -/
def defaultSortOf : Declared C → Except QueryError (DefaultSort C)
  | .strategy s => .ok (.strategy s)
  | .value v => (normalizeOrder v).map .clauses
  | .resolved own given => do
    let s ← given.toStrategy own
    throw (.misconfigured (.strategyAsOrdering s.literal))

/-- Add a declaration. -/
def declare [Collection C] (b : RulesBuilder C) : Declaration C → Traced (RulesBuilder C)
  | .filtersBy name strategy options => do
    let rule ← Traced.ofExcept (filterRule name strategy options)
    Traced.log (.registeredFilter name rule.strategy.label)
    return { b with filters := b.filters.insert name rule }
  | .sortsBy name strategy => do
    let strategy ← Traced.ofExcept (strategyOr (.byName name) name strategy)
    Traced.log (.registeredSort name strategy.label)
    return { b with sorts := b.sorts.insert name strategy }
  | .dynamicallySortsBy stem strategy => do
    let strategy ← Traced.ofExcept (dynamicStrategy stem strategy)
    Traced.log (.registeredDynamicSort stem strategy.label)
    return { b with dynamicSorts := b.dynamicSorts.insertLast stem strategy }
  | .uniqueSort orderings => do
    return { b with uniqueSort := ← Traced.ofExcept (uniqueClauses orderings) }
  | .defaultSort given => do
    return { b with defaultSort := some (← Traced.ofExcept (defaultSortOf given)) }
  | .paginatesWith paginator => return { b with paginator }

/-- Add declarations one after the other, up to the first that fails. -/
def declareAll [Collection C] (b : RulesBuilder C) (ds : List (Declaration C)) :
    Traced (RulesBuilder C) := ds.foldlM declare b

end RulesBuilder

end ResourceQuery
