import ResourceQuery.Rules.Builder

/-!
# Declaring rules in place

A builder is changed by declarations, and who catches the failure of one may go on with others. A
declaration therefore reads all that it states before it changes anything.

Headlines:
* **`Registering`**: computations that may change a builder. A failure keeps what was changed before
  it.
* **`RulesBuilder.register`**: what each declaration does, step by step.
* **`RulesBuilder.registerEach`**: declarations one after the other, whether they fail or not.
-/

namespace ResourceQuery

/-- A computation that may change a builder. -/
def Registering (C α : Type) : Type := RulesBuilder C → Traced α × RulesBuilder C

namespace Registering

variable {C α β : Type}

/-- Go on with a result if there is one. -/
def andThen (x : Registering C α) (f : α → Registering C β) : Registering C β := fun b =>
  let (first, b) := x b
  match first.result with
  | .ok a =>
    let (second, b) := f a b
    (⟨second.result, first.entries ++ second.entries⟩, b)
  | .error e => (⟨.error e, first.entries⟩, b)

instance : Monad (Registering C) where
  pure a := fun b => (pure a, b)
  bind := andThen

/-- A result that leaves the builder alone. -/
def ofExcept (r : Except QueryError α) : Registering C α := fun b => (Traced.ofExcept r, b)

/-- Log an event. -/
def log (event : LogEvent) : Registering C Unit := fun b => (Traced.log event, b)

/-- Change the builder. -/
def change (f : RulesBuilder C → RulesBuilder C) : Registering C Unit := fun b => (pure (), f b)

end Registering

namespace RulesBuilder

open Registering

variable {C : Type} [Collection C]

/-- Make a declaration. -/
def register : Declaration C → Registering C Unit
  | .filtersBy name strategy options => do
    let rule ← ofExcept (filterRule name strategy options)
    change fun b => { b with filters := b.filters.insert name rule }
    log (.registeredFilter name rule.strategy.label)
  | .sortsBy name strategy => do
    let strategy ← ofExcept (strategyOr (.byName name) name strategy)
    change fun b => { b with sorts := b.sorts.insert name strategy }
    log (.registeredSort name strategy.label)
  | .dynamicallySortsBy stem strategy => do
    let strategy ← ofExcept (dynamicStrategy stem strategy)
    change fun b => { b with dynamicSorts := b.dynamicSorts.erase stem }
    change fun b => { b with dynamicSorts := b.dynamicSorts.insert stem strategy }
    log (.registeredDynamicSort stem strategy.label)
  | .uniqueSort orderings => do
    let clauses ← ofExcept (uniqueClauses orderings)
    change fun b => { b with uniqueSort := clauses }
  | .defaultSort given => do
    let usual ← ofExcept (defaultSortOf given)
    change fun b => { b with defaultSort := some usual }
  | .paginatesWith paginator => change fun b => { b with paginator }

/-- The builder after declarations that are made one after the other, whether they fail or not. -/
def registerEach (b : RulesBuilder C) (ds : List (Declaration C)) : RulesBuilder C :=
  ds.foldl (fun b d => (register d b).2) b

/-- **Making a declaration** gives the builder that it describes or leaves the one that is there. -/
theorem register_eq (d : Declaration C) (b : RulesBuilder C) :
    register d b = ((fun _ => ()) <$> b.declare d, (b.declare d).result.toOption.getD b) := by
  cases d with
  | filtersBy name strategy options =>
    simp only [register, declare]
    cases filterRule name strategy options <;> rfl
  | sortsBy name strategy =>
    simp only [register, declare]
    cases strategyOr (.byName name) name strategy <;> rfl
  | dynamicallySortsBy stem strategy =>
    simp only [register, declare]
    cases dynamicStrategy stem strategy <;> rfl
  | uniqueSort orderings =>
    simp only [register, declare]
    cases uniqueClauses orderings <;> rfl
  | defaultSort given =>
    simp only [register, declare]
    cases defaultSortOf given <;> rfl
  | paginatesWith paginator => rfl

end RulesBuilder

end ResourceQuery
