import ResourceQuery.Request.IncludeTree
import ResourceQuery.Rules.Basic
import ResourceQuery.Settings
import ResourceQuery.Value.Demand
import ResourceQuery.Value.Field

/-!
# The stages before paging

Sort: every requested attribute has to have a rule; all that have none are reported at once,
before anything is asked of the collection. Then each rule is applied from left to right, or the
default sort if nothing is requested, and last the clauses that break ties.

Include: the related records that a request asks for are loaded along with the collection.

Filter: the rules are applied one after the other in the order of their declaration, whatever
the order of the request's parameters, so that a filter may rely on what an earlier one did.

Headlines:
* **`QueryRules.unpermitted`**: the requested attributes without a rule.
* **`QueryRules.sort`**: the whole sort stage.
* **`includeRequested`**: the whole include stage. A request that names nothing leaves the
  collection as it is.
* **`FilterRule.query`**: what a request asks of a rule; blank values count as absent.
* **`FilterRule.isEnabled`**: whether the rule applies. Guards decide alone if there are any;
  else the query has to be present, or absent values have to be asked for.
* **`QueryRules.filter`**: the whole filter stage.
-/

namespace ResourceQuery

/-! ## Sort -/

namespace QueryRules

variable {C : Type}

/-- The requested attributes that no rule permits, in the order of the request. -/
def unpermitted (rules : QueryRules C) (params : List SortParam) : List String :=
  (params.map (·.name)).filter fun name => !rules.isSortPermitted name

/-- Refuse a request for attributes that no rule permits. -/
def ensurePermitted (rules : QueryRules C) (params : List SortParam) : Except QueryError Unit :=
  match rules.unpermitted params with
  | [] => .ok ()
  | names => .error (.unpermitted names)

variable [Collection C]

/-- Drop the ordering of a collection if it is to be replaced. -/
def dropOrder (settings : Settings) (collection : Selection C) : Traced (Selection C) :=
  if settings.replaceExistingOrder then Collection.perform (.reorder []) collection
  else pure collection

/-- Apply the rule of one requested attribute. -/
def sortBy (rules : QueryRules C) (collection : Selection C) (param : SortParam) :
    Traced (Selection C) := do
  Traced.log (.applyingSort param.serialize)
  match rules.findSort param.name with
  | some rule => rule.apply param.name param.direction collection
  | none => return collection

/-- Apply the default sort. -/
def sortByDefault (collection : Selection C) : DefaultSort C → Traced (Selection C)
  | .strategy s => s.apply .defaultSort collection
  | .clauses clauses => Collection.perform (.orderByClauses clauses) collection

/-- The order that a request asks for, or else the default one. -/
def requestedOrder (rules : QueryRules C) (settings : Settings) (params : List SortParam)
    (collection : Selection C) : Traced (Selection C) :=
  match params, rules.defaultSort with
  | [], none => pure collection
  | [], some usual => do
    let collection ← dropOrder settings collection
    Traced.log .applyingDefaultSort
    sortByDefault collection usual
  | params, _ => do params.foldlM rules.sortBy (← dropOrder settings collection)

/-- Sort a collection as a request asks for. -/
def sort (rules : QueryRules C) (settings : Settings) (raw : Value)
    (collection : Selection C) : Traced (Selection C) := do
  let params ← Traced.ofExcept (SortParam.readAll raw)
  Traced.ofExcept (rules.ensurePermitted params)
  let ordered ← rules.requestedOrder settings params collection
  Traced.log (.appendingUniqueSort rules.uniqueSort)
  Collection.perform (.orderByClauses rules.uniqueSort) ordered

end QueryRules

/-! ## Include -/

/-- Load the related records that a request asks for. -/
def includeRequested {C : Type} [Collection C] (raw : Value) (collection : C) : Traced C := do
  let specs ← Traced.ofExcept (IncludeTree.specs raw)
  if specs.isEmpty then return collection
  Traced.log (.including specs)
  Collection.perform (.includeRelated specs) collection

/-! ## Filter -/

/-- The filter parameters of a request. What counts for no holds none. -/
def filterEntries (given : Value) : Except QueryError (List (Value × Value)) :=
  if given.isTruthy then given.entriesFor "get" else .ok []

namespace FilterRule

variable {C : Type}

/-- What the request asks of the rule. -/
def query (r : FilterRule C) (entries : List (Value × Value)) : Value :=
  ((Value.lookup? r.parameter entries).getD .null).presence

/-- The object of the rule's class, if its strategy is one. -/
def object? (r : FilterRule C) (query : Value) (collection : Selection C) :
    Except QueryError (Option (StrategyObject C)) :=
  match r.strategy with
  | .function .. => .ok none
  | .cls c => (c.build collection (Task.filter query).arguments).map some

/-- Do all guards pass? They are asked in order up to the first that does not. -/
def allPass [Collection C] (query : Value) (object : Option (StrategyObject C)) :
    List Guard → Traced Bool
  | [] => pure true
  | g :: gs => do if ← g.passes query object then allPass query object gs else return false

/-- Does the rule apply? -/
def isEnabled [Collection C] (r : FilterRule C) (entries : List (Value × Value)) (query : Value)
    (object : Option (StrategyObject C)) : Traced Bool :=
  if r.guards.isEmpty then
    pure (!query.isNull || (r.allowNil && (Value.lookup? r.parameter entries).isSome))
  else allPass query object r.guards

/-- Apply the rule to a collection if it applies. -/
def run [Collection C] (entries : List (Value × Value)) (r : FilterRule C)
    (collection : Selection C) : Traced (Selection C) := do
  let query := r.query entries
  let object ← Traced.ofExcept (r.object? query collection)
  if ← r.isEnabled entries query object then
    Traced.log (.applyingFilter r.name query)
    match object with
    | some o => o.results
    | none => r.strategy.apply (.filter query) collection
  else
    Traced.log (.skippingFilter r.name)
    return collection

end FilterRule

/-- Apply all filter rules. Parameters that are no map are noticed by the first of them. -/
def QueryRules.filter {C : Type} [Collection C] (rules : QueryRules C) (params : Value)
    (collection : Selection C) : Traced (Selection C) :=
  rules.filters.foldlM
    (fun c rule => do rule.run (← Traced.ofExcept (filterEntries params)) c) collection

end ResourceQuery
