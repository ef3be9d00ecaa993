import ResourceQuery.Proofs.Query.Guards

/-!
# Conditions that name a check

A condition may name a method of the filter's class. Its name is looked up twice: on the class when
the filter is declared, and on the object that is built for a request. The class is asked for any
member of the name, the object for a method. An attribute of the class that is no method is
accepted by the first look-up and missed by the second, and so is a method of which the object
holds what it was built from under the same name.

Headlines:
* **`StrategyClass.IsMethod`**, **`IsPlain`**: the two kinds of members.
* **`StrategyClass.method?_eq_none_iff`**: the names that the second look-up misses.
* **`Condition.result_evaluate_eq_error_iff`**: a condition fails with an error of its own, or
  because its name is missed.
* **`FilterRule.result_isEnabled_eq_error_iff`**: guards fail where the first of them does that is
  asked and fails.
* **`RulesBuilder.toCondition_of_names`**: what a declaration says to a name.
* **`RulesBuilder.checks_of_filterRule`**: which names are refused at once, and which later.
-/

namespace ResourceQuery

/-! ## Members of a class -/

namespace StrategyClass

variable {C : Type} {c : StrategyClass C} {name : String}

/-- The name of an attribute of the class that is no method. -/
def IsPlain (c : StrategyClass C) (name : String) : Prop :=
  ∃ v, c.member? name = some (.constant v)

/-- The name of a method of the class. -/
def IsMethod (c : StrategyClass C) (name : String) : Prop :=
  c.hasMember name = true ∧ ¬ c.IsPlain name

/-- The object that a class of filters builds for a query. -/
def filterObject (c : StrategyClass C) (query : Value) (collection : Selection C) :
    StrategyObject C :=
  ⟨c, [(queryName, query)], collection⟩

/-- A name under which such an object holds what it was built from. -/
def IsHeld (name : String) : Prop := name = collectionName ∨ name = queryName

variable {query : Value} {collection : Selection C}

theorem build_filter (h : c.shape = .filter) :
    c.build collection [query] = .ok (c.filterObject query collection) := by
  unfold build
  rw [h]
  rfl

theorem holdsField_iff : (c.filterObject query collection).holdsField name = true ↔ IsHeld name := by
  unfold StrategyObject.holdsField filterObject IsHeld
  simp only [List.any_cons, List.any_nil, Bool.or_false, Bool.or_eq_true, beq_iff_eq]
  exact or_congr_right eq_comm

/-- **What the second look-up misses**: what is no member of the class or no method, and methods
whose names the object has for something else. -/
theorem method?_eq_none_iff :
    (c.filterObject query collection).method? name = none ↔
      c.hasMember name = false ∨ c.IsPlain name ∨ IsHeld name := by
  unfold StrategyObject.method?
  by_cases hheld : IsHeld name
  · rw [if_pos (holdsField_iff.mpr hheld)]
    simp [hheld]
  · rw [if_neg (fun h => hheld (holdsField_iff.mp h))]
    have hcls : (c.filterObject query collection).cls = c := rfl
    rw [hcls]
    unfold hasMember IsPlain
    cases hmember : c.member? name with
    | none => simp
    | some m => cases m <;> simp [hheld]

end StrategyClass

/-! ## Conditions that fail -/

namespace Condition

variable {C : Type} [Collection C]

/-- An error of what a condition is made of: the function of the query, or the method that is
called. -/
def Raises (query : Value) (object : StrategyObject C) (e : QueryError) : Condition → Prop
  | .always _ => False
  | .predicate answer => answer query = .error e
  | .named check => ∃ outcome, object.method? check = some outcome ∧
      (outcome >>= Collection.holds).result = .error e

/-- **A condition fails** with an error of its own, or because it names no method of the object. -/
theorem result_evaluate_eq_error_iff {query : Value} {object : StrategyObject C} {e : QueryError}
    {condition : Condition} :
    (condition.evaluate query (some object)).result = .error e ↔
      condition.Raises query object e ∨
        ∃ check, condition = .named check ∧ object.method? check = none ∧
          e = .misconfigured (.missingCheck object.cls.name check) := by
  cases condition with
  | always answer => simp [evaluate, Raises]
  | predicate answer =>
    cases h : answer query <;> simp [evaluate, Raises, h, Except.map]
  | named check =>
    unfold evaluate evaluateNamed
    cases hmethod : object.method? check with
    | none => simp [Raises, hmethod, eq_comm]
    | some outcome => simp [Raises, hmethod]

end Condition

/-- A guard fails as its condition does. -/
theorem Guard.result_passes_eq_error_iff {C : Type} [Collection C] {query : Value}
    {object : Option (StrategyObject C)} {g : Guard} {e : QueryError} :
    (g.passes query object).result = .error e ↔
      (g.condition.evaluate query object).result = .error e := by
  unfold passes
  rw [Traced.result_bind]
  cases (g.condition.evaluate query object).result with
  | error e' => rfl
  | ok holds =>
    constructor
    · intro h
      cases h
    · intro h
      cases h

namespace FilterRule

variable {C : Type} [Collection C]

/-- A guard is asked if all those before it pass. -/
def IsAsked (query : Value) (object : Option (StrategyObject C)) (guards : List Guard)
    (g : Guard) : Prop :=
  ∃ earlier later, guards = earlier ++ g :: later ∧
    ∀ b ∈ earlier, (b.passes query object).result = .ok true

variable {query : Value} {object : Option (StrategyObject C)} {e : QueryError}

/-- The guards that are asked: the first, and if it passes those that are asked of the rest. -/
theorem isAsked_cons_iff {first : Guard} {rest : List Guard} {g : Guard} :
    IsAsked query object (first :: rest) g ↔
      g = first ∨ ((first.passes query object).result = .ok true ∧ IsAsked query object rest g) := by
  constructor
  · rintro ⟨earlier, later, hsplit, hpass⟩
    cases earlier with
    | nil =>
      left
      cases hsplit
      rfl
    | cons b earlier =>
      right
      cases hsplit
      rw [List.forall_mem_cons] at hpass
      exact ⟨hpass.1, earlier, later, rfl, hpass.2⟩
  · rintro (rfl | ⟨hfirst, earlier, later, rfl, hpass⟩)
    · exact ⟨[], rest, rfl, List.forall_mem_nil _⟩
    · exact ⟨first :: earlier, later, rfl, List.forall_mem_cons.mpr ⟨hfirst, hpass⟩⟩

/-- **Guards fail** where one of them does that is asked. -/
theorem result_allPass_eq_error_iff {guards : List Guard} :
    (allPass query object guards).result = .error e ↔
      ∃ g, IsAsked query object guards g ∧
        (g.condition.evaluate query object).result = .error e := by
  induction guards with
  | nil => simp [allPass, IsAsked]
  | cons first rest ih =>
    rw [allPass, Traced.result_bind]
    simp only [isAsked_cons_iff, or_and_right, exists_or, exists_eq_left]
    cases hfirst : (first.passes query object).result with
    | error e' =>
      -- no guard after this one is asked
      have hcondition := Guard.result_passes_eq_error_iff.mp hfirst
      simp [hcondition, bind, Except.bind]
    | ok answer =>
      have hfine : ¬ (first.condition.evaluate query object).result = .error e := by
        intro h
        rw [Guard.result_passes_eq_error_iff.mpr h] at hfirst
        cases hfirst
      cases answer with
      | false => simp [hfine, bind, Except.bind]
      | true => simpa [hfine, bind, Except.bind] using ih

/-- **A rule fails to find out whether it applies** where a guard fails that is asked. -/
theorem result_isEnabled_eq_error_iff {r : FilterRule C} {entries : List (Value × Value)} :
    (r.isEnabled entries query object).result = .error e ↔
      ∃ g, IsAsked query object r.guards g ∧
        (g.condition.evaluate query object).result = .error e := by
  unfold isEnabled
  split
  · next hempty =>
    have hnil : r.guards = [] := by simpa using hempty
    simp [hnil, IsAsked]
  · exact result_allPass_eq_error_iff

omit [Collection C] in
/-- The object of a rule whose strategy is a class of filters. -/
theorem object?_filter {r : FilterRule C} {c : StrategyClass C} {collection : Selection C}
    (hstrategy : r.strategy = .cls c) (hshape : c.shape = .filter) :
    r.object? query collection = .ok (some (c.filterObject query collection)) := by
  unfold object?
  rw [hstrategy]
  show (c.build collection [query]).map some = _
  rw [StrategyClass.build_filter hshape]
  rfl

end FilterRule

/-! ## Declarations -/

/-- A condition that is declared by the name of a check, as a text or made already. -/
def GivenCondition.Names (given : GivenCondition) (check : String) : Prop :=
  given = .value (.str check) ∨ given = .condition (.named check)

namespace RulesBuilder

variable {C : Type} {name check : String} {c : StrategyClass C} {condition : GivenCondition}

/-- **What a declaration says to a name**: any member of the class will do. -/
theorem toCondition_of_names (h : condition.Names check) :
    condition.toCondition name (.cls c) =
      if c.hasMember check then .ok (.named check)
      else .error (.misconfigured (.missingCheck c.name check)) := by
  rcases h with rfl | rfl <;> rfl

/-- A condition that is accepted names a member of the class, if it names a check. -/
theorem hasMember_of_toCondition
    (h : condition.toCondition name (.cls c) = .ok (.named check)) : c.hasMember check = true := by
  unfold GivenCondition.toCondition at h
  obtain ⟨read, -, h⟩ := Sorting.eq_ok_of_bind h
  cases read with
  | named own =>
    unfold GivenCondition.lookUp at h
    simp only at h
    split at h <;> cases h
    assumption
  | always answer => cases h
  | predicate answer => cases h

/-- A condition that is not accepted blames the declaration. -/
theorem misconfigured_of_toCondition {strategy : Strategy C} {e : QueryError}
    (h : condition.toCondition name strategy = .error e) : ∃ fault, e = .misconfigured fault := by
  unfold GivenCondition.toCondition at h
  cases hread : condition.read name with
  | error e' =>
    rw [hread] at h
    cases h
    unfold GivenCondition.read at hread
    split at hread <;> cases hread
    exact ⟨_, rfl⟩
  | ok read =>
    rw [hread] at h
    replace h : GivenCondition.lookUp name strategy read = .error e := h
    unfold GivenCondition.lookUp at h
    split at h
    · split at h
      · cases h
        exact ⟨_, rfl⟩
      · split at h <;> cases h
        exact ⟨_, rfl⟩
    · cases h

/-- A declared condition that is not accepted makes no guard. -/
theorem guardOf_of_refused {strategy : Strategy C} {expected : Bool} {e : QueryError}
    (h : condition.toCondition name strategy = .error e) :
    guardOf name strategy expected (some condition) = .error e := by
  unfold guardOf
  simp only
  rw [h]
  rfl

/-- Whatever else is declared, a condition may only fail by blaming the declaration. -/
theorem misconfigured_of_guardOf {strategy : Strategy C} {expected : Bool} {e : QueryError}
    {given : Option GivenCondition} (h : guardOf name strategy expected given = .error e) :
    ∃ fault, e = .misconfigured fault := by
  cases given with
  | none => cases h
  | some condition =>
    cases hcondition : condition.toCondition name strategy with
    | error e' =>
      rw [guardOf_of_refused hcondition] at h
      cases h
      exact misconfigured_of_toCondition hcondition
    | ok accepted =>
      unfold guardOf at h
      simp only at h
      rw [hcondition] at h
      cases h

variable [Collection C] {given : Option (Declared C)} {options : FilterOptions}

/-- **A refused condition** refuses the declaration. -/
theorem filterRule_of_refused {e : QueryError}
    (hgiven : strategyOr (.equality name) name given = .ok (.cls c))
    (hrefused : condition.toCondition name (.cls c) = .error e)
    (hoptions : options.onlyIf = some condition ∨ options.unlessIf = some condition) :
    ∃ fault, filterRule name given options = .error (.misconfigured fault) := by
  unfold filterRule
  rw [hgiven]
  show ∃ fault, (guardOf name (.cls c) true options.onlyIf >>= _) = _
  cases hfirst : guardOf name (.cls c) true options.onlyIf with
  | error e' =>
    obtain ⟨fault, rfl⟩ := misconfigured_of_guardOf hfirst
    exact ⟨fault, rfl⟩
  | ok required =>
    rcases hoptions with honly | hunless
    · rw [honly, guardOf_of_refused hrefused] at hfirst
      cases hfirst
    · obtain ⟨fault, rfl⟩ := misconfigured_of_toCondition hrefused
      refine ⟨fault, ?_⟩
      rw [hunless]
      show (guardOf name (.cls c) false (some condition) >>= _) = _
      rw [guardOf_of_refused hrefused]
      rfl

/-- A condition that names a check makes a guard of that name. -/
theorem mem_guards_of_names {r : FilterRule C} (hrule : filterRule name given options = .ok r)
    (hnames : condition.Names check)
    (hoptions : options.onlyIf = some condition ∨ options.unlessIf = some condition) :
    ∃ g ∈ r.guards, g.condition = .named check := by
  obtain ⟨strategy, required, excluded, -, hrequired, hexcluded, rfl⟩ :=
    filterRule_eq_ok_iff.mp hrule
  have hnamed {accepted : Condition} (h : condition.toCondition name strategy = .ok accepted) :
      accepted = .named check := by
    cases strategy with
    | function label run => rcases hnames with rfl | rfl <;> cases h
    | cls c =>
      rw [toCondition_of_names hnames] at h
      split at h <;> cases h
      rfl
  rcases hoptions with honly | hunless
  · rw [honly] at hrequired
    obtain ⟨accepted, haccepted, rfl⟩ := guardOf_some_eq_ok_iff.mp hrequired
    exact ⟨⟨accepted, true⟩, List.mem_append_left _ List.mem_cons_self, hnamed haccepted⟩
  · rw [hunless] at hexcluded
    obtain ⟨accepted, haccepted, rfl⟩ := guardOf_some_eq_ok_iff.mp hexcluded
    exact ⟨⟨accepted, false⟩, List.mem_append_right _ List.mem_cons_self, hnamed haccepted⟩

/-- The names of an accepted declaration are members of its class. -/
theorem hasMember_of_mem_guards {r : FilterRule C}
    (hgiven : strategyOr (.equality name) name given = .ok (.cls c))
    (hrule : filterRule name given options = .ok r) {g : Guard} (hg : g ∈ r.guards)
    (hcheck : g.condition = .named check) : c.hasMember check = true := by
  obtain ⟨strategy, required, excluded, hstrategy, hrequired, hexcluded, rfl⟩ :=
    filterRule_eq_ok_iff.mp hrule
  cases hgiven.symm.trans hstrategy
  have hmember {expected : Bool} {declared : Option GivenCondition} {guards : List Guard}
      (h : guardOf name (.cls c) expected declared = .ok guards) (hg : g ∈ guards) :
      c.hasMember check = true := by
    cases declared with
    | none =>
      cases h
      cases hg
    | some condition =>
      obtain ⟨accepted, haccepted, rfl⟩ := guardOf_some_eq_ok_iff.mp h
      rw [List.mem_singleton] at hg
      subst hg
      replace hcheck : accepted = .named check := hcheck
      rw [hcheck] at haccepted
      exact hasMember_of_toCondition haccepted
  rcases List.mem_append.mp hg with hg | hg
  · exact hmember hrequired hg
  · exact hmember hexcluded hg

/-- **Which names of checks are refused, and when.** A filter is declared with a class of filters.
Whether a name is accepted as a condition depends on whether the class has any member of that name,
and a declaration with a name that is not accepted is refused as misconfigured. Where it is
accepted, all names that it gives are methods or plain attributes of the class, and for every
request the object of the filter can be built. Its conditions then fail in two ways and no other: with
an error of what a condition calls, or as misconfigured, and the latter exactly if a condition is
asked that names a plain attribute, or a method under whose name the object holds its collection or
its query. -/
theorem checks_of_filterRule (name : String) (given : Option (Declared C)) (c : StrategyClass C)
    (hgiven : strategyOr (.equality name) name given = .ok (.cls c))
    (hshape : c.shape = .filter) :
    (∀ condition check, GivenCondition.Names condition check →
      condition.toCondition name (.cls c) =
        if c.hasMember check then .ok (.named check)
        else .error (.misconfigured (.missingCheck c.name check))) ∧
    (∀ options condition check, GivenCondition.Names condition check → c.hasMember check = false →
      options.onlyIf = some condition ∨ options.unlessIf = some condition →
      ∃ fault, filterRule name given options = .error (.misconfigured fault)) ∧
    ∀ options r, filterRule name given options = .ok r →
      (∀ condition check, GivenCondition.Names condition check →
        options.onlyIf = some condition ∨ options.unlessIf = some condition →
        (∃ g ∈ r.guards, g.condition = .named check) ∧ (c.IsMethod check ∨ c.IsPlain check)) ∧
      ∀ entries collection, ∃ object,
        r.object? (r.query entries) collection = .ok (some object) ∧
        ∀ e, (r.isEnabled entries (r.query entries) (some object)).result = .error e ↔
          ∃ g, FilterRule.IsAsked (r.query entries) (some object) r.guards g ∧
            (g.condition.Raises (r.query entries) object e ∨
              ∃ check, g.condition = .named check ∧
                (c.IsPlain check ∨ check = collectionName ∨ check = queryName) ∧
                e = .misconfigured (.missingCheck c.name check)) := by
  refine ⟨fun condition check hnames => toCondition_of_names hnames, ?_, ?_⟩
  · intro options condition check hnames hmissing hoptions
    have hrefused : condition.toCondition name (.cls c) =
        .error (.misconfigured (.missingCheck c.name check)) := by
      rw [toCondition_of_names hnames, hmissing]
      rfl
    exact filterRule_of_refused hgiven hrefused hoptions
  · intro options r hrule
    have hmember (g : Guard) (hg : g ∈ r.guards) (check : String)
        (hcheck : g.condition = .named check) : c.hasMember check = true :=
      hasMember_of_mem_guards hgiven hrule hg hcheck
    refine ⟨fun condition check hnames hoptions => ?_, fun entries collection => ?_⟩
    · obtain ⟨g, hg, hcheck⟩ := mem_guards_of_names hrule hnames hoptions
      refine ⟨⟨g, hg, hcheck⟩, ?_⟩
      by_cases hplain : c.IsPlain check
      · exact .inr hplain
      · exact .inl ⟨hmember g hg check hcheck, hplain⟩
    · have hstrategy : r.strategy = .cls c := by
        obtain ⟨strategy, _, _, hchosen, -, -, rfl⟩ := filterRule_eq_ok_iff.mp hrule
        exact Except.ok.inj (hchosen.symm.trans hgiven)
      refine ⟨_, FilterRule.object?_filter hstrategy hshape, fun e => ?_⟩
      rw [FilterRule.result_isEnabled_eq_error_iff]
      refine exists_congr fun g => and_congr_right fun hasked => ?_
      rw [Condition.result_evaluate_eq_error_iff]
      refine or_congr_right (exists_congr fun check => and_congr_right fun hcheck => ?_)
      obtain ⟨earlier, later, hsplit, -⟩ := hasked
      have hg : g ∈ r.guards := by simp [hsplit]
      refine and_congr_left fun _ => ?_
      rw [StrategyClass.method?_eq_none_iff]
      simp [hmember g hg check hcheck, StrategyClass.IsHeld]

/-- A class that filters by status. What it holds as `strict` is a setting and no method. -/
def statusFilter : StrategyClass Memory where
  name := "StatusFilter"
  shape := .filter
  body? := some fun given c => Collection.perform (.restrict [] [("status", given.query)]) c
  checks := [("known", fun query => .ok (.bool (query.text?.isSome)))]
  constants := [("strict", .bool true)]

/-- The declaration of the filter with a condition that is named. -/
def statusRule (check : String) : Except QueryError (FilterRule Memory) :=
  filterRule "status" (some (.strategy (.cls statusFilter)))
    ⟨none, false, some (.value (.str check)), none⟩

/-- A name that the class does not have is refused at once. The name of its setting is accepted, and
then every request fails. -/
theorem checks_of_statusFilter :
    (∃ fault, statusRule "strikt" = .error (.misconfigured fault)) ∧
    ∃ r, statusRule "strict" = .ok r ∧ ∀ entries collection, ∃ object,
      r.object? (r.query entries) collection = .ok (some object) ∧
      (r.isEnabled entries (r.query entries) (some object)).result =
        .error (.misconfigured (.missingCheck "StatusFilter" "strict")) := by
  obtain ⟨-, hrefused, haccepted⟩ := checks_of_filterRule "status"
    (some (.strategy (.cls statusFilter))) statusFilter rfl rfl
  refine ⟨hrefused _ _ "strikt" (.inl rfl) rfl (.inl rfl), ?_⟩
  have hrule : statusRule "strict" =
      .ok ⟨"status", .cls statusFilter, "status", false, [⟨.named "strict", true⟩]⟩ := rfl
  refine ⟨_, hrule, fun entries collection => ?_⟩
  obtain ⟨-, hrequests⟩ := haccepted _ _ hrule
  obtain ⟨object, hobject, hfails⟩ := hrequests entries collection
  refine ⟨object, hobject, (hfails _).mpr ⟨⟨.named "strict", true⟩, ?_, .inr ?_⟩⟩
  · exact FilterRule.isAsked_cons_iff.mpr (.inl rfl)
  · exact ⟨"strict", rfl, .inl ⟨.bool true, rfl⟩, rfl⟩

end RulesBuilder

end ResourceQuery
