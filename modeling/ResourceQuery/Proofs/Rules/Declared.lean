import ResourceQuery.Rules.Builder
import ResourceQuery.Sorting

/-!
# What filters and sorts are declared with

A declaration hands over a strategy, conditions and options, and the rule that it states can be told
from these without asking the builder: the strategy is the one that was handed over, however it was
wrapped, a condition that names a check is accepted where the class has a member of the name, and
the guards stand in the order of the two conditions.

Headlines:
* **`Declared.Gives`**, **`Declared.Chosen`**: the strategy of a declaration.
* **`GivenCondition.Means`**, **`Guard.Declares`**: the condition, and the guard that it makes.
* **`FilterRule.IsDeclared`**: the rule of a filter declaration.
* **`RulesBuilder.filterRule_eq_ok_iff_isDeclared`**: the builder states this rule and no other.
-/

namespace ResourceQuery

open Sorting (eq_ok_of_bind)

variable {C : Type}

/-! ## Strategies -/

/-- A declaration gives a strategy, which may be wrapped any number of times. -/
inductive Declared.Gives : Declared C → Strategy C → Prop
  | made (s : Strategy C) : Gives (.strategy s) s
  | wrapped {own : String} {given : Declared C} {s : Strategy C} :
    Gives given s → Gives (.resolved own given) s

/-- The strategy of a declaration: the one that it gives, or the usual one if it has none. -/
inductive Declared.Chosen (usual : Strategy C) : Option (Declared C) → Strategy C → Prop
  | usual : Chosen usual none usual
  | given {given : Declared C} {s : Strategy C} : given.Gives s → Chosen usual (some given) s

theorem Declared.toStrategy_eq_ok_iff {name : String} {given : Declared C} {s : Strategy C} :
    given.toStrategy name = .ok s ↔ given.Gives s := by
  induction given generalizing name with
  | strategy made =>
    constructor
    · rintro ⟨⟩
      exact .made _
    · rintro ⟨⟩
      rfl
  | value v => exact ⟨nofun, nofun⟩
  | resolved own given ih =>
    rw [toStrategy, ih]
    exact ⟨.wrapped, fun | .wrapped h => h⟩

namespace RulesBuilder

theorem strategyOr_eq_ok_iff {usual s : Strategy C} {name : String} {given : Option (Declared C)} :
    strategyOr usual name given = .ok s ↔ Declared.Chosen usual given s := by
  cases given with
  | none =>
    constructor
    · rintro ⟨⟩
      exact .usual
    · rintro ⟨⟩
      rfl
  | some given =>
    rw [strategyOr, Declared.toStrategy_eq_ok_iff]
    exact ⟨.given, fun | .given h => h⟩

theorem dynamicStrategy_eq_ok_iff {s : Strategy C} {stem : String}
    {given : Option (Declared C)} :
    dynamicStrategy stem given = .ok s ↔ ∃ declared, given = some declared ∧ declared.Gives s := by
  cases given with
  | none => exact ⟨nofun, nofun⟩
  | some declared => simp [dynamicStrategy, Declared.toStrategy_eq_ok_iff]

end RulesBuilder

/-! ## Conditions -/

/-- The strategy is a class with a member of the name. -/
def Strategy.HasMember (s : Strategy C) (name : String) : Prop :=
  ∃ c : StrategyClass C, s = .cls c ∧ c.hasMember name = true

/-- What a declared condition means beside a strategy. -/
inductive GivenCondition.Means (s : Strategy C) : GivenCondition → Condition → Prop
  | function (answer : Value → Except QueryError Value) :
    Means s (.function answer) (.predicate answer)
  | answer (b : Bool) : Means s (.value (.bool b)) (.always (.bool b))
  | name {check : String} : s.HasMember check → Means s (.value (.str check)) (.named check)
  | always (v : Value) : Means s (.condition (.always v)) (.always v)
  | predicate (answer : Value → Except QueryError Value) :
    Means s (.condition (.predicate answer)) (.predicate answer)
  | named {check : String} : s.HasMember check → Means s (.condition (.named check)) (.named check)

/-- The guard of a condition, if one is declared. -/
inductive Guard.Declares (s : Strategy C) (expected : Bool) :
    Option GivenCondition → List Guard → Prop
  | none : Declares s expected none []
  | some {given : GivenCondition} {condition : Condition} :
    given.Means s condition → Declares s expected (some given) [⟨condition, expected⟩]

namespace GivenCondition

variable {s : Strategy C} {name check : String} {condition : Condition}

theorem lookUp_named_eq_ok_iff :
    lookUp name s (.named check) = .ok condition ↔ s.HasMember check ∧ condition = .named check := by
  cases s with
  | function label run => exact ⟨nofun, fun ⟨⟨_, h, _⟩, _⟩ => nomatch h⟩
  | cls c =>
    have hmember : (Strategy.cls c).HasMember check ↔ c.hasMember check = true :=
      ⟨fun ⟨_, h, hmember⟩ => by cases h; exact hmember, fun h => ⟨c, rfl, h⟩⟩
    rw [hmember]
    simp only [lookUp]
    split
    · next h => simp [h, eq_comm]
    · next h => simp [h]

/-- **What a declared condition means** is what the builder reads it as. -/
theorem toCondition_eq_ok_iff {given : GivenCondition} :
    given.toCondition name s = .ok condition ↔ given.Means s condition := by
  -- A name is looked up, whether it is a text or a condition; nothing else is.
  cases given with
  | condition c =>
    cases c with
    | always v => exact ⟨fun h => by cases h; exact .always v, fun | .always _ => rfl⟩
    | predicate answer =>
      exact ⟨fun h => by cases h; exact .predicate answer, fun | .predicate _ => rfl⟩
    | named check =>
      refine lookUp_named_eq_ok_iff.trans ⟨?_, fun | .named h => ⟨h, rfl⟩⟩
      rintro ⟨hmember, rfl⟩
      exact .named hmember
  | function answer =>
    exact ⟨fun h => by cases h; exact .function answer, fun | .function _ => rfl⟩
  | value v =>
    cases v with
    | bool b => exact ⟨fun h => by cases h; exact .answer b, fun | .answer _ => rfl⟩
    | str check =>
      refine lookUp_named_eq_ok_iff.trans ⟨?_, fun | .name h => ⟨h, rfl⟩⟩
      rintro ⟨hmember, rfl⟩
      exact .name hmember
    | _ => exact ⟨nofun, nofun⟩

end GivenCondition

namespace RulesBuilder

variable {s : Strategy C} {name : String}

theorem guardOf_eq_ok_iff {expected : Bool} {given : Option GivenCondition} {guards : List Guard} :
    guardOf name s expected given = .ok guards ↔ Guard.Declares s expected given guards := by
  cases given with
  | none => exact ⟨fun h => by cases h; exact .none, fun | .none => rfl⟩
  | some given =>
    constructor
    · intro h
      obtain ⟨condition, hcondition, h⟩ := eq_ok_of_bind h
      cases h
      exact .some (GivenCondition.toCondition_eq_ok_iff.mp hcondition)
    · rintro (_ | hmeans)
      simp only [guardOf, GivenCondition.toCondition_eq_ok_iff.mpr hmeans, bind, Except.bind, pure,
        Except.pure]

end RulesBuilder

/-! ## The rule of a filter declaration -/

/-- **The rule of a filter declaration**, told from the declaration itself. -/
structure FilterRule.IsDeclared [Collection C] (r : FilterRule C) (name : String)
    (given : Option (Declared C)) (options : FilterOptions) : Prop where
  named : r.name = name
  strategy : Declared.Chosen (.equality name) given r.strategy
  /-- The parameter that is named, unless it is empty. -/
  parameter : r.parameter = (options.parameter.filter (· ≠ "")).getD name
  allowNil : r.allowNil = options.allowNil
  guards : ∃ required excluded, Guard.Declares r.strategy true options.onlyIf required ∧
    Guard.Declares r.strategy false options.unlessIf excluded ∧ r.guards = required ++ excluded

namespace RulesBuilder

variable [Collection C] {name : String} {given : Option (Declared C)} {r : FilterRule C}
  {options : FilterOptions}

theorem parameterOr_eq (name : String) (parameter : Option String) :
    parameterOr name parameter = (parameter.filter (· ≠ "")).getD name := by
  unfold parameterOr
  split
  · rfl
  · rfl
  · next p hp => rw [Option.filter_some, if_pos (by simpa using hp)]; rfl

/-- How the builder comes to a rule: the strategy first and then the two conditions. -/
theorem filterRule_eq_ok_iff :
    filterRule name given options = .ok r ↔
      ∃ strategy required excluded,
        strategyOr (.equality name) name given = .ok strategy ∧
        guardOf name strategy true options.onlyIf = .ok required ∧
        guardOf name strategy false options.unlessIf = .ok excluded ∧
        r = {
          name, strategy
          parameter := parameterOr name options.parameter
          allowNil := options.allowNil
          guards := required ++ excluded } := by
  unfold filterRule
  constructor
  · intro h
    obtain ⟨strategy, hstrategy, h⟩ := eq_ok_of_bind h
    obtain ⟨required, hrequired, h⟩ := eq_ok_of_bind h
    obtain ⟨excluded, hexcluded, h⟩ := eq_ok_of_bind h
    cases h
    exact ⟨strategy, required, excluded, hstrategy, hrequired, hexcluded, rfl⟩
  · rintro ⟨strategy, required, excluded, hstrategy, hrequired, hexcluded, rfl⟩
    simp only [hstrategy, hrequired, hexcluded, bind, Except.bind, pure, Except.pure]

/-- **The rule that the builder states** is the declared one. -/
theorem filterRule_eq_ok_iff_isDeclared :
    filterRule name given options = .ok r ↔ r.IsDeclared name given options := by
  rw [filterRule_eq_ok_iff]
  constructor
  · rintro ⟨strategy, required, excluded, hstrategy, hrequired, hexcluded, rfl⟩
    exact ⟨rfl, strategyOr_eq_ok_iff.mp hstrategy, parameterOr_eq name options.parameter, rfl,
      required, excluded, guardOf_eq_ok_iff.mp hrequired, guardOf_eq_ok_iff.mp hexcluded, rfl⟩
  · intro h
    obtain ⟨required, excluded, hrequired, hexcluded, hguards⟩ := h.guards
    refine ⟨r.strategy, required, excluded, strategyOr_eq_ok_iff.mpr h.strategy,
      guardOf_eq_ok_iff.mpr hrequired, guardOf_eq_ok_iff.mpr hexcluded, ?_⟩
    rw [parameterOr_eq, ← h.parameter, ← h.allowNil, ← hguards, ← h.named]

end RulesBuilder

end ResourceQuery
