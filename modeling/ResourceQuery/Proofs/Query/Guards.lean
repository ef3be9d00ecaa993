import ResourceQuery.Proofs.Collection.Matching
import ResourceQuery.Proofs.Query.Run
import ResourceQuery.Proofs.Rules.Declared
import ResourceQuery.Query.Stages

/-!
# Filters with conditions

A filter declared to apply if a condition holds and one declared to apply unless it does are
evaluated alike, as one list of guards. Between them they always apply exactly once, and a filter
with both conditions applies where each of the two alone would.

Headlines:
* **`Strategy.filtered`**: what a strategy does as a filter, told from what it is made of.
* **`FilterRule.Acts`**, **`FilterRule.Skips`**: the two things that a rule can come to.
* **`FilterRule.Decides`**: the conditions of a rule can be asked, and whether they hold.
* **`FilterRule.acts_or_skips`**: a rule whose guards have an answer comes to one of the two.
* **`FilterRule.acts_iff_of_guards`**: when a rule that has guards applies.
* **`RulesBuilder.filterRule_complement`**, **`filterRule_conjunction`**: a condition and its
  opposite, and two conditions.
* **`RulesBuilder.filterRule_conditions`**: what conditions of filters come to.
-/

namespace ResourceQuery

/-! ## Strategies as filters -/

section

variable {C : Type}

namespace StrategyClass

/-- What a class has under a name for all its objects. -/
def shared (c : StrategyClass C) (name : String) : Value :=
  match c.ownMember? name with
  | some (.constant v) => v
  | some _ => .record []
  | none => .null

/-- What the body of a class works with as a filter: the query stands for the first thing that an
object of the class is built from. -/
def asked (c : StrategyClass C) (query : Value) : Arguments :=
  match c.shape with
  | .filter => ⟨query, c.shared attributeName, c.shared directionName⟩
  | .sort => ⟨c.shared queryName, c.shared attributeName, query⟩
  | .dynamicSort => ⟨c.shared queryName, query, Direction.asc.toValue⟩
  | .plain => ⟨c.shared queryName, c.shared attributeName, c.shared directionName⟩

/-- **What a class does as a filter**: its body, once. A class without one may have something else
under that name, and otherwise fails. -/
def filtered (c : StrategyClass C) (query : Value) (collection : Selection C) :
    Traced (Selection C) :=
  match c.body? with
  | some run => run (c.asked query) collection
  | none =>
    match c.ownMember? resultsName with
    | some (.check answer) => .ofExcept ((answer (c.asked query).query).map .given)
    | some _ => .fail .wrongKind
    | none =>
      if c.shape = .plain then .fail .noAttribute else .fail (.notImplemented (.results c.name))

end StrategyClass

/-- **What a strategy does as a filter**: a function is called, and of a class the body is run. -/
def Strategy.filtered (s : Strategy C) (query : Value) (collection : Selection C) :
    Traced (Selection C) :=
  match s with
  | .function _ run => run (.filter query) collection
  | .cls c => c.filtered query collection

namespace StrategyClass

variable {c : StrategyClass C} {query : Value} {collection : Selection C} {name : String}

/-- What a class defines beside its body is a check or a constant. -/
theorem ownMember?_eq_some {m : Member C} (h : c.ownMember? name = some m) :
    (∃ answer, m = .check answer) ∨ ∃ v, m = .constant v := by
  unfold ownMember? at h
  split at h
  · cases h
    exact .inl ⟨_, rfl⟩
  · obtain ⟨e, -, rfl⟩ := Option.map_eq_some_iff.mp h
    exact .inr ⟨_, rfl⟩

/-- What an object does not hold itself it has from its class. -/
theorem get_of_not_held {o : StrategyObject C} (name : String)
    (h : o.fields.find? (·.1 == name) = none) :
    o.get name = o.cls.shared name := by
  unfold StrategyObject.get shared
  rw [h]
  rcases o.cls.ownMember? name with _ | (_ | _ | _ | _) <;> rfl

/-- An object that is built for a query works with what its class is asked for. -/
theorem arguments_of_build {o : StrategyObject C} (h : c.build collection [query] = .ok o) :
    o.cls = c ∧ o.collection = collection ∧ o.holdsField resultsName = false ∧
      o.arguments = c.asked query := by
  unfold build at h
  unfold asked StrategyObject.arguments
  cases hshape : c.shape <;> rw [hshape] at h <;> cases h <;> refine ⟨rfl, rfl, rfl, ?_⟩
  case filter =>
    rw [get_of_not_held attributeName rfl, get_of_not_held directionName rfl]
    rfl
  case sort =>
    rw [get_of_not_held queryName rfl, get_of_not_held attributeName rfl]
    rfl
  case dynamicSort =>
    rw [get_of_not_held queryName rfl]
    rfl
  case plain =>
    rw [get_of_not_held queryName rfl, get_of_not_held attributeName rfl,
      get_of_not_held directionName rfl]

/-- **The result of an object** is what its class does as a filter. -/
theorem results_of_build {o : StrategyObject C} (h : c.build collection [query] = .ok o) :
    o.results = c.filtered query collection := by
  obtain ⟨hcls, hcollection, hholds, harguments⟩ := arguments_of_build h
  have hquery : o.get queryName = (c.asked query).query := congrArg Arguments.query harguments
  unfold StrategyObject.results StrategyObject.method? filtered
  rw [hholds, if_neg Bool.false_ne_true, hcls, hcollection, harguments, hquery]
  unfold hasMember member?
  rw [if_pos rfl]
  cases hbody : c.body? with
  | some run => rfl
  | none =>
    cases hown : c.ownMember? resultsName with
    | some m => obtain ⟨answer, rfl⟩ | ⟨v, rfl⟩ := ownMember?_eq_some hown <;> rfl
    | none =>
      show (match c.inherited? with | _ => _) = _
      unfold inherited?
      by_cases hplain : c.shape = .plain
      · simp [hplain]
      · simp [hplain]

end StrategyClass

end

namespace FilterRule

variable {C : Type} [Collection C] {r : FilterRule C} {entries : List (Value × Value)}
  {collection : Selection C} {object : Option (StrategyObject C)} {guards : List Guard}

/-! ## What a rule comes to -/

/-- What happens while a rule finds out whether it applies. -/
def noted (r : FilterRule C) (entries : List (Value × Value)) (collection : Selection C) :
    List Entry :=
  match r.object? (r.query entries) collection with
  | .ok object => (r.isEnabled entries (r.query entries) object).entries
  | .error _ => []

/-- **The rule applies**: after its conditions it does what its strategy does once with the query
of the request, and nothing else. -/
def Acts (r : FilterRule C) (entries : List (Value × Value)) (collection : Selection C) : Prop :=
  r.run entries collection =
    ⟨(r.strategy.filtered (r.query entries) collection).result,
      r.noted entries collection ++ .logged (.applyingFilter r.name (r.query entries)) ::
        (r.strategy.filtered (r.query entries) collection).entries⟩

/-- **The rule is skipped**: after its conditions it gives the collection that it was given. -/
def Skips (r : FilterRule C) (entries : List (Value × Value)) (collection : Selection C) : Prop :=
  r.run entries collection =
    ⟨.ok collection, r.noted entries collection ++ [.logged (.skippingFilter r.name)]⟩

/-- No rule does both. -/
theorem Acts.not_skips (h : r.Acts entries collection) : ¬ r.Skips entries collection := by
  intro hskips
  have hentries := congrArg Traced.entries (h.symm.trans hskips)
  cases List.append_cancel_left hentries

omit [Collection C] in
/-- What a rule does with its object, or with its strategy if there is none, is what the strategy
does as a filter. -/
theorem filtered_of_object? (h : r.object? (r.query entries) collection = .ok object) :
    object.elim (r.strategy.apply (.filter (r.query entries)) collection) StrategyObject.results =
      r.strategy.filtered (r.query entries) collection := by
  unfold object? at h
  cases hstrategy : r.strategy with
  | function label run =>
    rw [hstrategy] at h
    cases h
    rfl
  | cls c =>
    rw [hstrategy] at h
    simp only at h
    cases hbuild : c.build collection (Task.filter (r.query entries)).arguments with
    | error e =>
      rw [hbuild] at h
      cases h
    | ok o =>
      rw [hbuild] at h
      cases h
      exact StrategyClass.results_of_build hbuild

/-- What a rule comes to once it has its object. -/
theorem run_of_object? (h : r.object? (r.query entries) collection = .ok object) :
    r.run entries collection =
      (r.isEnabled entries (r.query entries) object >>= fun enabled =>
        if enabled then do
          Traced.log (.applyingFilter r.name (r.query entries))
          r.strategy.filtered (r.query entries) collection
        else do
          Traced.log (.skippingFilter r.name)
          return collection) := by
  unfold run
  simp only
  rw [h, ← filtered_of_object? h]
  refine (pure_bind (m := Traced) object _).trans ?_
  cases object <;> rfl

/-- **A rule that finds out whether it applies** does so or is skipped. -/
theorem acts_or_skips {enabled : Bool}
    (hobject : r.object? (r.query entries) collection = .ok object)
    (henabled : (r.isEnabled entries (r.query entries) object).result = .ok enabled) :
    (r.Acts entries collection ↔ enabled = true) ∧
      (r.Skips entries collection ↔ enabled = false) := by
  have hnoted : r.noted entries collection =
      (r.isEnabled entries (r.query entries) object).entries := by
    rw [noted, hobject]
  have hrun := (run_of_object? hobject).trans (Traced.bind_of_ok henabled _)
  rw [← hnoted] at hrun
  cases enabled with
  | false =>
    have hskips : r.Skips entries collection := hrun
    exact ⟨iff_of_false (fun hacts => hacts.not_skips hskips) nofun, iff_of_true hskips rfl⟩
  | true =>
    have hacts : r.Acts entries collection := hrun
    exact ⟨iff_of_true hacts rfl, iff_of_false hacts.not_skips nofun⟩

/-! ## Guards -/

theorem result_allPass {query : Value}
    (h : ∀ g ∈ guards, ∃ answer, (g.passes query object).result = .ok answer) :
    (allPass query object guards).result =
      .ok (guards.all fun g => isYes (g.passes query object).result) := by
  induction guards with
  | nil => rfl
  | cons g rest ih =>
    rw [List.forall_mem_cons] at h
    obtain ⟨answer, hanswer⟩ := h.1
    rw [allPass, Traced.result_bind_of_ok hanswer, List.all_cons, hanswer]
    cases answer with
    | false => rfl
    | true => exact ih h.2

/-- A guard passes if its condition has the outcome that it must have. -/
theorem result_passes {g : Guard} {query : Value} {holds : Bool}
    (h : (g.condition.evaluate query object).result = .ok holds) :
    (g.passes query object).result = .ok (holds == g.expected) :=
  Traced.result_bind_of_ok h _

/-- **Guards decide alone**: a rule that has some applies if every condition has the outcome that it
must have, and is skipped otherwise. -/
theorem acts_iff_of_guards (hguards : r.guards ≠ [])
    (hobject : r.object? (r.query entries) collection = .ok object)
    (hasked : ∀ g ∈ r.guards, ∃ holds,
      (g.condition.evaluate (r.query entries) object).result = .ok holds) :
    (r.Acts entries collection ↔ ∀ g ∈ r.guards,
      (g.condition.evaluate (r.query entries) object).result = .ok g.expected) ∧
    (r.Skips entries collection ↔ ¬ r.Acts entries collection) := by
  have hpasses : ∀ g ∈ r.guards, ∃ answer,
      (g.passes (r.query entries) object).result = .ok answer :=
    fun g hg => (hasked g hg).imp' (· == g.expected) fun _ => result_passes
  have henabled : (r.isEnabled entries (r.query entries) object).result =
      .ok (r.guards.all fun g => isYes (g.passes (r.query entries) object).result) := by
    unfold isEnabled
    rw [if_neg (by simpa using hguards), result_allPass hpasses]
  obtain ⟨hacts, hskips⟩ := acts_or_skips hobject henabled
  refine ⟨hacts.trans ?_, ?_⟩
  · rw [List.all_eq_true]
    refine forall₂_congr fun g hg => ?_
    obtain ⟨holds, hholds⟩ := hasked g hg
    rw [result_passes hholds, hholds, isYes, beq_iff_eq, Except.ok.injEq]
  · rw [hskips, hacts, Bool.not_eq_true]

/-- The same rule with other guards. -/
def withGuards (r : FilterRule C) (guards : List Guard) : FilterRule C := { r with guards }

/-- A rule with one guard. -/
theorem acts_iff_of_guard {condition : Condition} (expected : Bool) {holds : Bool}
    (hobject : r.object? (r.query entries) collection = .ok object)
    (hholds : (condition.evaluate (r.query entries) object).result = .ok holds) :
    ((r.withGuards [⟨condition, expected⟩]).Acts entries collection ↔ holds = expected) ∧
      ((r.withGuards [⟨condition, expected⟩]).Skips entries collection ↔ holds ≠ expected) := by
  obtain ⟨hacts, hskips⟩ := acts_iff_of_guards (r := r.withGuards [⟨condition, expected⟩])
    (List.cons_ne_nil _ _) hobject (List.forall_mem_singleton.mpr ⟨holds, hholds⟩)
  have houtcome : (r.withGuards [⟨condition, expected⟩]).Acts entries collection ↔
      holds = expected := by
    refine hacts.trans (List.forall_mem_singleton.trans ?_)
    show (condition.evaluate (r.query entries) object).result = .ok expected ↔ _
    rw [hholds, Except.ok.injEq]
  exact ⟨houtcome, hskips.trans (not_congr houtcome)⟩

/-- A rule with two guards applies where the rules with one of them would. -/
theorem acts_iff_of_guard_pair {first second : Guard} {holds holds' : Bool}
    (hobject : r.object? (r.query entries) collection = .ok object)
    (hholds : (first.condition.evaluate (r.query entries) object).result = .ok holds)
    (hholds' : (second.condition.evaluate (r.query entries) object).result = .ok holds') :
    ((r.withGuards [first, second]).Acts entries collection ↔
      (r.withGuards [first]).Acts entries collection ∧
        (r.withGuards [second]).Acts entries collection) ∧
    ((r.withGuards [first, second]).Skips entries collection ↔
      ¬ (r.withGuards [first, second]).Acts entries collection) := by
  obtain ⟨hacts, hskips⟩ := acts_iff_of_guards (r := r.withGuards [first, second])
    (List.cons_ne_nil _ _) hobject
    (List.forall_mem_cons.mpr ⟨⟨_, hholds⟩, List.forall_mem_singleton.mpr ⟨_, hholds'⟩⟩)
  have hfirst := (acts_iff_of_guards (r := r.withGuards [first]) (List.cons_ne_nil _ _) hobject
    (List.forall_mem_singleton.mpr ⟨_, hholds⟩)).1
  have hsecond := (acts_iff_of_guards (r := r.withGuards [second]) (List.cons_ne_nil _ _) hobject
    (List.forall_mem_singleton.mpr ⟨_, hholds'⟩)).1
  refine ⟨hacts.trans (List.forall_mem_cons.trans (and_congr ?_ hsecond.symm)), hskips⟩
  exact (hfirst.trans List.forall_mem_singleton).symm

/-- The object of a rule can be built and its conditions can be asked: they hold, or they do
not. -/
def Decides (r : FilterRule C) (entries : List (Value × Value)) (collection : Selection C)
    (holds : Bool) : Prop :=
  ∃ object, r.object? (r.query entries) collection = .ok object ∧
    ∀ g ∈ r.guards, (g.condition.evaluate (r.query entries) object).result = .ok holds

/-- What a rule with guards comes to does not depend on whether its parameter is there, nor on what
it does with an absent value. -/
theorem run_of_guards (hguards : r.guards ≠ []) (allowNil : Bool)
    {others : List (Value × Value)} (hquery : r.query others = r.query entries) :
    ({ r with allowNil } : FilterRule C).run others collection = r.run entries collection := by
  have hquery' : ({ r with allowNil } : FilterRule C).query others = r.query entries := hquery
  have henabled (object : Option (StrategyObject C)) :
      ({ r with allowNil } : FilterRule C).isEnabled others (r.query entries) object =
        r.isEnabled entries (r.query entries) object := by
    unfold isEnabled
    rw [if_neg (by simpa using hguards), if_neg (by simpa using hguards)]
  unfold run
  simp only [hquery', henabled]
  rfl

end FilterRule

/-! ## Declared filters -/

namespace RulesBuilder

variable {C : Type} [Collection C] {name : String} {given : Option (Declared C)}
  {strategy : Strategy C} {r : FilterRule C}

omit [Collection C] in
/-- A declared condition makes one guard. -/
theorem guardOf_some_eq_ok_iff {expected : Bool} {c : GivenCondition} {guards : List Guard} :
    guardOf name strategy expected (some c) = .ok guards ↔
      ∃ condition, c.toCondition name strategy = .ok condition ∧
        guards = [⟨condition, expected⟩] := by
  constructor
  · intro h
    obtain ⟨condition, hcondition, h⟩ := Sorting.eq_ok_of_bind h
    cases h
    exact ⟨condition, hcondition, rfl⟩
  · rintro ⟨condition, hcondition, rfl⟩
    simp only [guardOf, hcondition, bind, Except.bind, pure, Except.pure]

/-- The rule of a declaration with conditions has guards. -/
theorem guards_ne_nil {options : FilterOptions}
    (h : filterRule name given options = .ok r)
    (hguarded : options.onlyIf.isSome ∨ options.unlessIf.isSome) : r.guards ≠ [] := by
  obtain ⟨strategy, required, excluded, -, hrequired, hexcluded, rfl⟩ := filterRule_eq_ok_iff.mp h
  intro hnil
  obtain ⟨hnone, hnone'⟩ := List.append_eq_nil_iff.mp hnil
  rcases hguarded with hsome | hsome
  · obtain ⟨c, hc⟩ := Option.isSome_iff_exists.mp hsome
    rw [hc] at hrequired
    obtain ⟨condition, -, rfl⟩ := guardOf_some_eq_ok_iff.mp hrequired
    cases hnone
  · obtain ⟨c, hc⟩ := Option.isSome_iff_exists.mp hsome
    rw [hc] at hexcluded
    obtain ⟨condition, -, rfl⟩ := guardOf_some_eq_ok_iff.mp hexcluded
    cases hnone'

variable {parameter : Option String} {allowNil : Bool} {entries : List (Value × Value)}
  {collection : Selection C}

/-- A declared rule asks for the value of the declared parameter, blank ones being absent. -/
theorem query_of_isDeclared {options : FilterOptions} (h : r.IsDeclared name given options)
    (entries : List (Value × Value)) : r.query entries =
      ((Value.lookup? ((options.parameter.filter (· ≠ "")).getD name) entries).getD .null).presence := by
  rw [FilterRule.query, h.parameter]

/-- **A condition and its opposite**: of the two filters one applies and the other is skipped. -/
theorem filterRule_complement {c : GivenCondition} {w : FilterRule C} {holds : Bool}
    (hw : filterRule name given ⟨parameter, allowNil, some c, none⟩ = .ok w)
    (hdecides : w.Decides entries collection holds) :
    ∃ u, filterRule name given ⟨parameter, allowNil, none, some c⟩ = .ok u ∧
      if holds then w.Acts entries collection ∧ u.Skips entries collection
      else w.Skips entries collection ∧ u.Acts entries collection := by
  obtain ⟨strategy, _, _, hstrategy, hrequired, ⟨⟩, rfl⟩ := filterRule_eq_ok_iff.mp hw
  obtain ⟨condition, hcondition, rfl⟩ := guardOf_some_eq_ok_iff.mp hrequired
  obtain ⟨object, hobject, hasked⟩ := hdecides
  have hholds := hasked ⟨condition, true⟩ List.mem_cons_self
  have hacts := FilterRule.acts_iff_of_guard true hobject hholds
  have hopposite := FilterRule.acts_iff_of_guard false hobject hholds
  refine ⟨_, filterRule_eq_ok_iff.mpr ⟨strategy, _, _, hstrategy, rfl,
    guardOf_some_eq_ok_iff.mpr ⟨condition, hcondition, rfl⟩, rfl⟩, ?_⟩
  cases holds with
  | false => exact ⟨hacts.2.mpr nofun, hopposite.1.mpr rfl⟩
  | true => exact ⟨hacts.1.mpr rfl, hopposite.2.mpr nofun⟩

/-- **Two conditions**: the filter with both applies exactly where the filters with one of them
do. -/
theorem filterRule_conjunction {c₁ c₂ : GivenCondition} {w u : FilterRule C} {holds₁ holds₂ : Bool}
    (hw : filterRule name given ⟨parameter, allowNil, some c₁, none⟩ = .ok w)
    (hu : filterRule name given ⟨parameter, allowNil, none, some c₂⟩ = .ok u)
    (h₁ : w.Decides entries collection holds₁) (h₂ : u.Decides entries collection holds₂) :
    ∃ both, filterRule name given ⟨parameter, allowNil, some c₁, some c₂⟩ = .ok both ∧
      (both.Acts entries collection ↔
        w.Acts entries collection ∧ u.Acts entries collection) ∧
      (both.Skips entries collection ↔ ¬ both.Acts entries collection) := by
  obtain ⟨strategy, _, _, hstrategy, hrequired, ⟨⟩, rfl⟩ := filterRule_eq_ok_iff.mp hw
  obtain ⟨strategy', _, _, hstrategy', ⟨⟩, hexcluded, rfl⟩ := filterRule_eq_ok_iff.mp hu
  cases hstrategy.symm.trans hstrategy'
  obtain ⟨condition₁, hc₁, rfl⟩ := guardOf_some_eq_ok_iff.mp hrequired
  obtain ⟨condition₂, hc₂, rfl⟩ := guardOf_some_eq_ok_iff.mp hexcluded
  obtain ⟨object, hobject, hasked₁⟩ := h₁
  obtain ⟨object', hobject', hasked₂⟩ := h₂
  cases hobject.symm.trans hobject'
  have hpair := FilterRule.acts_iff_of_guard_pair hobject
    (hasked₁ ⟨condition₁, true⟩ List.mem_cons_self) (hasked₂ ⟨condition₂, false⟩ List.mem_cons_self)
  exact ⟨_, filterRule_eq_ok_iff.mpr ⟨strategy, _, _, hstrategy,
    guardOf_some_eq_ok_iff.mpr ⟨condition₁, hc₁, rfl⟩,
    guardOf_some_eq_ok_iff.mpr ⟨condition₂, hc₂, rfl⟩, rfl⟩, hpair⟩

/-- With a condition it makes no difference whether the parameter is there without a value or not at
all, nor what is done with absent values. -/
theorem run_of_conditions {onlyIf unlessIf : Option GivenCondition}
    (h : filterRule name given ⟨parameter, allowNil, onlyIf, unlessIf⟩ = .ok r)
    (hguarded : onlyIf.isSome ∨ unlessIf.isSome) (allowNil' : Bool) {others : List (Value × Value)}
    (hquery : r.query others = r.query entries) :
    ∃ r', filterRule name given ⟨parameter, allowNil', onlyIf, unlessIf⟩ = .ok r' ∧
      r'.run others collection = r.run entries collection := by
  have hsame : ({ r with allowNil := allowNil' } : FilterRule C).run others collection =
      r.run entries collection :=
    FilterRule.run_of_guards (guards_ne_nil h hguarded) allowNil' hquery
  obtain ⟨strategy, required, excluded, hstrategy, hrequired, hexcluded, rfl⟩ :=
    filterRule_eq_ok_iff.mp h
  exact ⟨_, filterRule_eq_ok_iff.mpr
    ⟨strategy, required, excluded, hstrategy, hrequired, hexcluded, rfl⟩, hsame⟩

/-- **Conditions of filters are complementary and conjunctive.** The builder accepts the declared
rule and no other, and the rule asks for the value of its parameter, blank ones being absent. For
every condition that is accepted, and that can be asked once the object of the strategy is built,
the opposite is accepted as well: one of the two filters does once what its strategy is made of, and
the other gives the collection that it was given. A filter with two conditions applies exactly where
those with one of them apply, and is skipped otherwise. No filter is both applied and skipped. And
where there is a condition, it makes no difference whether the parameter is there without a value or
not at all, nor what is done with absent values. -/
theorem filterRule_conditions (name : String) (given : Option (Declared C))
    (parameter : Option String) (allowNil : Bool) (entries : List (Value × Value))
    (collection : Selection C) :
    (∀ options r, (filterRule name given options = .ok r ↔ r.IsDeclared name given options) ∧
      (r.IsDeclared name given options → r.query entries =
        ((Value.lookup? ((options.parameter.filter (· ≠ "")).getD name) entries).getD
          .null).presence)) ∧
    (∀ c w holds, filterRule name given ⟨parameter, allowNil, some c, none⟩ = .ok w →
      w.Decides entries collection holds →
      ∃ u, filterRule name given ⟨parameter, allowNil, none, some c⟩ = .ok u ∧
        if holds then w.Acts entries collection ∧ u.Skips entries collection
        else w.Skips entries collection ∧ u.Acts entries collection) ∧
    (∀ c₁ c₂ w u holds₁ holds₂,
      filterRule name given ⟨parameter, allowNil, some c₁, none⟩ = .ok w →
      filterRule name given ⟨parameter, allowNil, none, some c₂⟩ = .ok u →
      w.Decides entries collection holds₁ → u.Decides entries collection holds₂ →
      ∃ both, filterRule name given ⟨parameter, allowNil, some c₁, some c₂⟩ = .ok both ∧
        (both.Acts entries collection ↔
          w.Acts entries collection ∧ u.Acts entries collection) ∧
        (both.Skips entries collection ↔ ¬ both.Acts entries collection)) ∧
    (∀ r : FilterRule C, ¬ (r.Acts entries collection ∧ r.Skips entries collection)) ∧
    ∀ onlyIf unlessIf r, filterRule name given ⟨parameter, allowNil, onlyIf, unlessIf⟩ = .ok r →
      onlyIf.isSome ∨ unlessIf.isSome →
      ∀ allowNil' others, r.query others = r.query entries →
        ∃ r', filterRule name given ⟨parameter, allowNil', onlyIf, unlessIf⟩ = .ok r' ∧
          r'.run others collection = r.run entries collection :=
  ⟨fun _ _ => ⟨filterRule_eq_ok_iff_isDeclared, fun h => query_of_isDeclared h entries⟩,
    fun _ _ _ hw hdecides => filterRule_complement hw hdecides,
    fun _ _ _ _ _ _ hw hu h₁ h₂ => filterRule_conjunction hw hu h₁ h₂,
    fun _ h => h.1.not_skips h.2,
    fun _ _ _ h hguarded allowNil' _ hquery => run_of_conditions h hguarded allowNil' hquery⟩

/-- A class that filters by roles. Its check answers with a list, which counts for yes as long as it
holds anything. -/
def roleFilter : StrategyClass Memory where
  name := "RoleFilter"
  shape := .filter
  body? := some fun given c => Collection.perform (.restrict [] [("role", given.query)]) c
  checks := [("held", fun query => .ok (.list [query]))]
  constants := []

/-- The declaration of the filter with its conditions. -/
def roleRule (onlyIf unlessIf : Option GivenCondition) : Except QueryError (FilterRule Memory) :=
  filterRule "role" (some (.strategy (.cls roleFilter))) ⟨none, false, onlyIf, unlessIf⟩

/-- Two people, of whom the second has no role. -/
def roles : Memory where
  items :=
    [.record [("id", .int 1), ("role", .str "cook")], .record [("id", .int 2), ("role", .null)]]

/-- The people that a rule leaves of them where the role is left blank. -/
def chosen (r : FilterRule Memory) : Except QueryError (List Value) := do
  match ← (r.run [(.str "role", .str " ")] (.live roles)).result with
  | .live m => m.rows
  | .given _ => .ok []

/-- The check holds, and an answer of nothing does not. The filter for the one and against the other
applies, although the request leaves the role blank: it leaves those without a role. The opposite of
the check leaves everyone. -/
theorem filterRule_conditions_of_roles :
    ∃ w u both, roleRule (some (.value (.str "held"))) none = .ok w ∧
      roleRule none (some (.value (.str "held"))) = .ok u ∧
      roleRule (some (.value (.str "held"))) (some (.function fun _ => .ok .null)) = .ok both ∧
      chosen w = .ok [.record [("id", .int 2), ("role", .null)]] ∧
      chosen u = .ok roles.items ∧
      chosen both = .ok [.record [("id", .int 2), ("role", .null)]] := by
  obtain ⟨-, hopposite, hboth, -, -⟩ := filterRule_conditions "role"
    (some (.strategy (.cls roleFilter))) none false [(.str "role", .str " ")] (.live roles)
  have hheld : roleRule (some (.value (.str "held"))) none =
      .ok ⟨"role", .cls roleFilter, "role", false, [⟨.named "held", true⟩]⟩ := by rfl
  have hnothing : roleRule (some (.function fun _ => .ok .null)) none =
      .ok ⟨"role", .cls roleFilter, "role", false, [⟨.predicate fun _ => .ok .null, true⟩]⟩ := by rfl
  have hagainst : roleRule none (some (.function fun _ => .ok .null)) =
      .ok ⟨"role", .cls roleFilter, "role", false, [⟨.predicate fun _ => .ok .null, false⟩]⟩ := by
    rfl
  have hholds : FilterRule.Decides
      ⟨"role", .cls roleFilter, "role", false, [⟨.named "held", true⟩]⟩ [(.str "role", .str " ")]
      (.live roles) true := by
    refine ⟨_, rfl, List.forall_mem_singleton.mpr ?_⟩
    rfl
  have hfails (expected : Bool) : FilterRule.Decides
      ⟨"role", .cls roleFilter, "role", false, [⟨.predicate fun _ => .ok .null, expected⟩]⟩
      [(.str "role", .str " ")] (.live roles) false := by
    refine ⟨_, rfl, List.forall_mem_singleton.mpr ?_⟩
    rfl
  -- What a rule that applies leaves is told by the body of the class alone.
  have hleft {r : FilterRule Memory} (hstrategy : r.strategy = .cls roleFilter)
      (hquery : r.query [(.str "role", .str " ")] = .null)
      (hacts : r.Acts [(.str "role", .str " ")] (.live roles)) :
      chosen r = .ok [.record [("id", .int 2), ("role", .null)]] := by
    rw [FilterRule.Acts, hstrategy, hquery] at hacts
    rw [chosen, hacts]
    with_unfolding_all rfl
  obtain ⟨u, hu, hacts, hskips⟩ := hopposite _ _ _ hheld hholds
  obtain ⟨u', hu', -, hacts'⟩ := hopposite _ _ _ hnothing (hfails true)
  cases hagainst.symm.trans hu'
  obtain ⟨both, hdeclared, hiff, -⟩ := hboth _ _ _ _ _ _ hheld hagainst hholds (hfails false)
  have hrule : roleRule (some (.value (.str "held"))) (some (.function fun _ => .ok .null)) =
      .ok ⟨"role", .cls roleFilter, "role", false,
        [⟨.named "held", true⟩, ⟨.predicate fun _ => .ok .null, false⟩]⟩ := by rfl
  cases hrule.symm.trans hdeclared
  refine ⟨_, u, _, hheld, hu, hdeclared, hleft rfl rfl hacts, ?_,
    hleft rfl rfl (hiff.mpr ⟨hacts, hacts'⟩)⟩
  rw [chosen, hskips]
  rfl

end RulesBuilder

end ResourceQuery
