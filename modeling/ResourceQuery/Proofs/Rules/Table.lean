import ResourceQuery.Proofs.OrderedMap
import ResourceQuery.Proofs.Query.Run
import ResourceQuery.Proofs.Rules.Declared
import ResourceQuery.Rules.Registration

/-!
# The table of declarations

A declaration states one thing or fails, and whether it fails does not depend on what was declared
before. The table after any declarations is therefore described by the statements of those that
succeed: a filter stands where its name was first stated, a dynamic sort where its stem was stated
last, and of everything the last statement counts. A table can be closed at any point and gone on
from, since building loses nothing.

Headlines:
* **`Stated`**, **`Declaration.States`**, **`Statements`**: what declarations state, told from what
  they hold. **`Declaration.stated_eq_ok_iff`**: the builder reads the same.
* **`RulesBuilder.register_of_error`**: a failure leaves the builder as it is.
* **`RulesBuilder.registerEach_eq`**, **`foldl_enter`**: a run enters what its declarations state.
* **`RulesBuilder.ofRules_build`**: building and going on from the table gives the builder back.
* **`QueryRules.Updated`**: a table after statements; **`table_of_declarations`**: the one that a
  builder makes.
-/

namespace ResourceQuery

open Sorting (eq_ok_of_bind)

variable {C : Type}

/-! ## Statements -/

/-- What a declaration states. -/
inductive Stated (C : Type) where
  | filter (rule : FilterRule C)
  | sort (name : String) (strategy : Strategy C)
  | dynamicSort (rule : DynamicSortRule C)
  | uniqueSort (clauses : List OrderClause)
  | defaultSort (usual : DefaultSort C)
  | paginator (paginator : Paginator)

namespace Stated

/-- The filter that is stated. -/
def filter? : Stated C → Option (FilterRule C)
  | .filter rule => some rule
  | _ => none

/-- The sort that is stated, under its name. -/
def sort? : Stated C → Option (String × Strategy C)
  | .sort name strategy => some (name, strategy)
  | _ => none

/-- The dynamic sort that is stated. -/
def dynamicSort? : Stated C → Option (DynamicSortRule C)
  | .dynamicSort rule => some rule
  | _ => none

/-- The clauses that are stated to break ties. -/
def uniqueSort? : Stated C → Option (List OrderClause)
  | .uniqueSort clauses => some clauses
  | _ => none

/-- The default sort that is stated. -/
def defaultSort? : Stated C → Option (DefaultSort C)
  | .defaultSort usual => some usual
  | _ => none

/-- The paginator that is stated. -/
def paginator? : Stated C → Option Paginator
  | .paginator p => some p
  | _ => none

end Stated

namespace RulesBuilder

/-- Enter what was stated. -/
def enter (b : RulesBuilder C) : Stated C → RulesBuilder C
  | .filter rule => { b with filters := b.filters.insert rule.name rule }
  | .sort name strategy => { b with sorts := b.sorts.insert name strategy }
  | .dynamicSort rule =>
    { b with dynamicSorts := b.dynamicSorts.insertLast rule.stem rule.strategy }
  | .uniqueSort clauses => { b with uniqueSort := clauses }
  | .defaultSort usual => { b with defaultSort := some usual }
  | .paginator p => { b with paginator := p }

/-- **What a builder holds** after statements, part by part. -/
theorem foldl_enter (said : List (Stated C)) (b : RulesBuilder C) :
    said.foldl enter b =
      { filters := b.filters.insertAll ((said.filterMap Stated.filter?).map fun r => (r.name, r))
        sorts := b.sorts.insertAll (said.filterMap Stated.sort?)
        dynamicSorts :=
          ((said.filterMap Stated.dynamicSort?).map fun r => (r.stem, r.strategy)).foldl
            (fun m e => m.insertLast e.1 e.2) b.dynamicSorts
        uniqueSort := (said.filterMap Stated.uniqueSort?).getLast?.getD b.uniqueSort
        defaultSort := (said.filterMap Stated.defaultSort?).getLast?.or b.defaultSort
        paginator := (said.filterMap Stated.paginator?).getLast?.getD b.paginator } := by
  induction said generalizing b with
  | nil => rfl
  | cons s rest ih =>
    rw [List.foldl_cons, ih]
    cases s with
    | filter rule => rfl
    | sort name strategy => rfl
    | dynamicSort rule => rfl
    | uniqueSort clauses =>
      simp only [List.filterMap_cons, Stated.uniqueSort?, List.getLast?_cons, Option.getD_some]
      rfl
    | defaultSort usual =>
      simp only [List.filterMap_cons, Stated.defaultSort?, List.getLast?_cons, Option.some_or]
      rw [← Option.or_some]
      rfl
    | paginator p =>
      simp only [List.filterMap_cons, Stated.paginator?, List.getLast?_cons, Option.getD_some]
      rfl

end RulesBuilder

/-! ## Declarations and their statements -/

section

variable [Collection C]

/-- What a declaration states, or why it fails. -/
def Declaration.stated : Declaration C → Except QueryError (Stated C)
  | .filtersBy name strategy options =>
    (RulesBuilder.filterRule name strategy options).map .filter
  | .sortsBy name strategy =>
    (RulesBuilder.strategyOr (.byName name) name strategy).map (.sort name)
  | .dynamicallySortsBy stem strategy =>
    (RulesBuilder.dynamicStrategy stem strategy).map fun s => .dynamicSort ⟨stem, s⟩
  | .uniqueSort orderings => (RulesBuilder.uniqueClauses orderings).map .uniqueSort
  | .defaultSort given => (RulesBuilder.defaultSortOf given).map .defaultSort
  | .paginatesWith paginator => .ok (.paginator paginator)

/-- **What a declaration states**, told from what it holds. A filter states the declared rule, a sort
the chosen strategy, and a dynamic sort the strategy that it cannot do without. At least one ordering
breaks ties, and several count one after the other. A default sort is a strategy or an ordering. -/
inductive Declaration.States : Declaration C → Stated C → Prop
  | filter {name : String} {given : Option (Declared C)} {options : FilterOptions}
      {rule : FilterRule C} :
    rule.IsDeclared name given options → States (.filtersBy name given options) (.filter rule)
  | sort {name : String} {given : Option (Declared C)} {s : Strategy C} :
    Declared.Chosen (.byName name) given s → States (.sortsBy name given) (.sort name s)
  | dynamicSort {stem : String} {given : Declared C} {s : Strategy C} :
    given.Gives s → States (.dynamicallySortsBy stem (some given)) (.dynamicSort ⟨stem, s⟩)
  | uniqueSort {orderings : List Value} {parts : List (List OrderClause)} :
    orderings ≠ [] → List.Forall₂ (fun v part => normalizeOrder v = .ok part) orderings parts →
    States (.uniqueSort orderings) (.uniqueSort parts.flatten)
  | usualStrategy (s : Strategy C) : States (.defaultSort (.strategy s)) (.defaultSort (.strategy s))
  | usualOrdering {v : Value} {clauses : List OrderClause} :
    normalizeOrder v = .ok clauses →
    States (.defaultSort (.value v)) (.defaultSort (.clauses clauses))
  | paginator (p : Paginator) : States (.paginatesWith p) (.paginator p)

/-- What those of some declarations state that state something. -/
inductive Statements : List (Declaration C) → List (Stated C) → Prop
  | nil : Statements [] []
  | stated {d : Declaration C} {s : Stated C} {ds : List (Declaration C)} {said : List (Stated C)} :
    d.States s → Statements ds said → Statements (d :: ds) (s :: said)
  | refused {d : Declaration C} {ds : List (Declaration C)} {said : List (Stated C)} :
    (∀ s, ¬ d.States s) → Statements ds said → Statements (d :: ds) said

omit [Collection C] in
theorem normalizeAll_eq_ok_iff {items : List Value} {clauses : List OrderClause} :
    normalizeAll items = .ok clauses ↔ ∃ parts, clauses = parts.flatten ∧
      List.Forall₂ (fun v part => normalizeOrder v = .ok part) items parts := by
  induction items generalizing clauses with
  | nil =>
    rw [normalizeAll]
    constructor
    · rintro ⟨⟩
      exact ⟨[], rfl, .nil⟩
    · rintro ⟨_, rfl, _ | _⟩
      rfl
  | cons v rest ih =>
    rw [normalizeAll]
    constructor
    · intro h
      obtain ⟨first, hfirst, h⟩ := eq_ok_of_bind h
      obtain ⟨later, hlater, h⟩ := eq_ok_of_bind h
      cases h
      obtain ⟨parts, rfl, hparts⟩ := ih.mp hlater
      exact ⟨first :: parts, rfl, .cons hfirst hparts⟩
    · rintro ⟨_, rfl, _ | ⟨hfirst, hparts⟩⟩
      rw [hfirst, ih.mpr ⟨_, rfl, hparts⟩]
      rfl

/-- A result that is taken further is there if the first one is. -/
theorem map_eq_ok_iff {α β : Type} {x : Except QueryError α} {f : α → β} {b : β} :
    x.map f = .ok b ↔ ∃ a, x = .ok a ∧ f a = b := by
  cases x with
  | error e => exact ⟨nofun, nofun⟩
  | ok a => simp [Except.map]

/-- **The builder reads what a declaration states.** -/
theorem Declaration.stated_eq_ok_iff {d : Declaration C} {s : Stated C} :
    d.stated = .ok s ↔ d.States s := by
  cases d with
  | filtersBy name given options =>
    rw [stated, map_eq_ok_iff]
    constructor
    · rintro ⟨rule, h, rfl⟩
      exact .filter (RulesBuilder.filterRule_eq_ok_iff_isDeclared.mp h)
    · intro | .filter h => exact ⟨_, RulesBuilder.filterRule_eq_ok_iff_isDeclared.mpr h, rfl⟩
  | sortsBy name given =>
    rw [stated, map_eq_ok_iff]
    constructor
    · rintro ⟨strategy, h, rfl⟩
      exact .sort (RulesBuilder.strategyOr_eq_ok_iff.mp h)
    · intro | .sort h => exact ⟨_, RulesBuilder.strategyOr_eq_ok_iff.mpr h, rfl⟩
  | dynamicallySortsBy stem given =>
    rw [stated, map_eq_ok_iff]
    constructor
    · rintro ⟨strategy, h, rfl⟩
      obtain ⟨declared, rfl, hgives⟩ := RulesBuilder.dynamicStrategy_eq_ok_iff.mp h
      exact .dynamicSort hgives
    · intro
      | .dynamicSort h =>
        exact ⟨_, RulesBuilder.dynamicStrategy_eq_ok_iff.mpr ⟨_, rfl, h⟩, rfl⟩
  | uniqueSort orderings =>
    rw [stated, map_eq_ok_iff]
    unfold RulesBuilder.uniqueClauses
    split
    · next hnil =>
      exact ⟨nofun, fun | .uniqueSort hsome _ => absurd (List.isEmpty_iff.mp hnil) hsome⟩
    · next hsome =>
      constructor
      · rintro ⟨clauses, h, rfl⟩
        obtain ⟨parts, rfl, hparts⟩ := normalizeAll_eq_ok_iff.mp h
        exact .uniqueSort (fun hnil => hsome (List.isEmpty_iff.mpr hnil)) hparts
      · intro
        | .uniqueSort _ hparts =>
          exact ⟨_, normalizeAll_eq_ok_iff.mpr ⟨_, rfl, hparts⟩, rfl⟩
  | defaultSort given =>
    rw [stated, map_eq_ok_iff]
    cases given with
    | strategy made =>
      constructor
      · rintro ⟨_, ⟨⟩, rfl⟩
        exact .usualStrategy made
      · rintro ⟨⟩
        exact ⟨_, rfl, rfl⟩
    | value v =>
      rw [RulesBuilder.defaultSortOf]
      constructor
      · rintro ⟨usual, h, rfl⟩
        obtain ⟨clauses, hclauses, rfl⟩ := map_eq_ok_iff.mp h
        exact .usualOrdering hclauses
      · intro | .usualOrdering h => exact ⟨_, map_eq_ok_iff.mpr ⟨_, h, rfl⟩, rfl⟩
    | resolved own given =>
      -- A strategy that is made already is read as an ordering, which it never is.
      refine ⟨?_, nofun⟩
      rintro ⟨usual, h, -⟩
      obtain ⟨_, -, h⟩ := eq_ok_of_bind h
      cases h
  | paginatesWith p =>
    constructor
    · rintro ⟨⟩
      exact .paginator p
    · rintro ⟨⟩
      rfl

/-- What those of some declarations state that succeed. -/
def statements (ds : List (Declaration C)) : List (Stated C) :=
  ds.filterMap fun d => d.stated.toOption

theorem statements_iff {ds : List (Declaration C)} {said : List (Stated C)} :
    Statements ds said ↔ said = statements ds := by
  induction ds generalizing said with
  | nil =>
    constructor
    · rintro ⟨⟩
      rfl
    · rintro rfl
      exact .nil
  | cons d rest ih =>
    unfold statements
    rw [List.filterMap_cons]
    cases hstated : d.stated with
    | error e =>
      have hrefused (s : Stated C) : ¬ d.States s := fun h => by
        cases hstated.symm.trans (Declaration.stated_eq_ok_iff.mpr h)
      constructor
      · intro
        | .stated h _ => exact absurd h (hrefused _)
        | .refused _ hrest => exact ih.mp hrest
      · rintro rfl
        exact .refused hrefused (ih.mpr rfl)
    | ok s =>
      have hstates := Declaration.stated_eq_ok_iff.mp hstated
      constructor
      · intro
        | .stated h hrest =>
          cases hstated.symm.trans (Declaration.stated_eq_ok_iff.mpr h)
          exact congrArg _ (ih.mp hrest)
        | .refused hnone _ => exact absurd hstates (hnone s)
      · rintro rfl
        exact .stated hstates (ih.mpr rfl)

namespace RulesBuilder

theorem name_of_filterRule {name : String} {strategy : Option (Declared C)}
    {options : FilterOptions} {rule : FilterRule C}
    (h : filterRule name strategy options = .ok rule) : rule.name = name := by
  obtain ⟨_, _, h⟩ := eq_ok_of_bind h
  obtain ⟨_, _, h⟩ := eq_ok_of_bind h
  obtain ⟨_, _, h⟩ := eq_ok_of_bind h
  cases h
  rfl

/-- **A declaration** enters what it states, or fails. -/
theorem result_declare (d : Declaration C) (b : RulesBuilder C) :
    (b.declare d).result = d.stated.map b.enter := by
  cases d with
  | filtersBy name strategy options =>
    simp only [declare, Declaration.stated]
    cases h : filterRule name strategy options with
    | error e => rfl
    | ok rule =>
      obtain rfl := name_of_filterRule h
      rfl
  | sortsBy name strategy =>
    simp only [declare, Declaration.stated]
    cases strategyOr (.byName name) name strategy <;> rfl
  | dynamicallySortsBy stem strategy =>
    simp only [declare, Declaration.stated]
    cases dynamicStrategy stem strategy <;> rfl
  | uniqueSort orderings =>
    simp only [declare, Declaration.stated]
    cases uniqueClauses orderings <;> rfl
  | defaultSort given =>
    simp only [declare, Declaration.stated]
    cases defaultSortOf given <;> rfl
  | paginatesWith paginator => rfl

/-- A declaration that is made in place succeeds if it states something. -/
theorem result_register (d : Declaration C) (b : RulesBuilder C) :
    (register d b).1.result = d.stated.map fun _ => () := by
  rw [register_eq]
  show (b.declare d >>= fun _ => pure ()).result = _
  rw [Traced.result_bind, result_declare]
  cases d.stated <;> rfl

/-- The builder after a declaration, whether it fails or not. -/
theorem builder_register (d : Declaration C) (b : RulesBuilder C) :
    (register d b).2 = d.stated.toOption.elim b b.enter := by
  rw [register_eq, result_declare]
  cases d.stated <;> rfl

/-- **A declaration that fails** leaves the builder as it is. -/
theorem register_of_error {d : Declaration C} {b : RulesBuilder C} {e : QueryError}
    (h : (register d b).1.result = .error e) : (register d b).2 = b := by
  rw [result_register] at h
  rw [builder_register]
  cases hstated : d.stated with
  | error e => rfl
  | ok s =>
    rw [hstated] at h
    cases h

theorem registerEach_eq (b : RulesBuilder C) (ds : List (Declaration C)) :
    b.registerEach ds = (statements ds).foldl enter b := by
  induction ds generalizing b with
  | nil => rfl
  | cons d rest ih =>
    rw [registerEach, List.foldl_cons, builder_register, statements, List.filterMap_cons]
    cases d.stated with
    | error e => exact ih b
    | ok s => exact ih (b.enter s)

end RulesBuilder

end

/-! ## Filters under their names -/

/-- Filters under their names, entered one after the other. -/
def filterTable (rules : List (FilterRule C)) : OrderedMap (FilterRule C) :=
  .ofList (rules.map fun r => (r.name, r))

/-- Each filter stands under its own name and is the last one of that name. -/
theorem last_of_mem_filterTable {rules : List (FilterRule C)} {e : String × FilterRule C}
    (h : e ∈ (filterTable rules).entries) :
    e.1 = e.2.name ∧ (rules.filter (·.name == e.1)).getLast? = some e.2 := by
  have hlast := OrderedMap.get?_eq_some_iff.mpr h
  rw [filterTable, OrderedMap.get?_ofList, List.filter_map, List.getLast?_map,
    Option.map_map] at hlast
  have hrule : (rules.filter (·.name == e.1)).getLast? = some e.2 := by
    simpa [Function.comp_def] using hlast
  have hname := (List.mem_filter.mp (List.mem_of_getLast? hrule)).2
  exact ⟨(beq_iff_eq.mp hname).symm, hrule⟩

/-- The names of the filters stand in the order in which they were first entered. -/
theorem names_filterTable (rules : List (FilterRule C)) :
    (filterTable rules).values.map (·.name) = (rules.map (·.name)).eraseDups := by
  have hnames : (filterTable rules).values.map (·.name) = (filterTable rules).keys := by
    rw [OrderedMap.values, OrderedMap.keys, List.map_map]
    exact List.map_congr_left fun e he => (last_of_mem_filterTable he).1.symm
  rw [hnames, filterTable, OrderedMap.keys_ofList, List.map_map]
  rfl

/-! ## Building and going on -/

namespace RulesBuilder

/-- **Building and going on** from the table gives the builder back. -/
theorem ofRules_build {b : RulesBuilder C} (h : ∀ e ∈ b.filters.entries, e.1 = e.2.name) :
    ofRules b.build = b := by
  have hfilters : (b.filters.values.map fun r => (r.name, r)) = b.filters.entries := by
    rw [OrderedMap.values, List.map_map]
    refine (List.map_congr_left fun e he => ?_).trans (List.map_id _)
    exact Prod.ext (h e he).symm rfl
  have hdynamic : (b.dynamicSorts.entries.map fun e => (⟨e.1, e.2⟩ : DynamicSortRule C)).map
      (fun r => (r.stem, r.strategy)) = b.dynamicSorts.entries := by
    rw [List.map_map]
    exact List.map_id _
  have hkept : (.ofList (b.filters.values.map fun r => (r.name, r))) = b.filters := by
    rw [hfilters]
    exact OrderedMap.ext_entries (OrderedMap.entries_ofList b.filters.nodup)
  have hkeptDynamic : (.ofList ((b.dynamicSorts.entries.map fun e =>
      (⟨e.1, e.2⟩ : DynamicSortRule C)).map fun r => (r.stem, r.strategy))) = b.dynamicSorts := by
    rw [hdynamic]
    exact OrderedMap.ext_entries (OrderedMap.entries_ofList b.dynamicSorts.nodup)
  rw [ofRules, build, hkept, hkeptDynamic]

end RulesBuilder

/-! ## The table after declarations -/

namespace QueryRules

/-- Tables that builders make. -/
def IsBuilt (rules : QueryRules C) : Prop := ∃ b : RulesBuilder C, rules = b.build

/-- The table without declarations is one. -/
theorem isBuilt_empty : ({} : QueryRules C).IsBuilt := ⟨.ofRules {}, rfl⟩

/-- What a table holds that starts as `rules` after statements: one filter for each name, in the
order in which the names were first stated, as it was stated last; under each name of a sort the
one that was stated last; the last dynamic sort of each stem, in the order of these; and of
everything else what was stated last. -/
structure Updated (rules : QueryRules C) (said : List (Stated C)) (table : QueryRules C) :
    Prop where
  filterNames : table.filters.map (·.name) =
    ((rules.filters ++ said.filterMap Stated.filter?).map (·.name)).eraseDups
  filters : ∀ rule ∈ table.filters,
    ((rules.filters ++ said.filterMap Stated.filter?).filter (·.name == rule.name)).getLast? =
      some rule
  sorts : ∀ name, table.sorts.get? name =
    (((said.filterMap Stated.sort?).filter (·.1 == name)).getLast?.map (·.2)).or
      (rules.sorts.get? name)
  dynamicSorts : table.dynamicSorts =
    lastOnes (·.stem) (rules.dynamicSorts ++ said.filterMap Stated.dynamicSort?)
  uniqueSort : table.uniqueSort = (said.filterMap Stated.uniqueSort?).getLast?.getD rules.uniqueSort
  defaultSort : table.defaultSort =
    (said.filterMap Stated.defaultSort?).getLast?.or rules.defaultSort
  paginator : table.paginator = (said.filterMap Stated.paginator?).getLast?.getD rules.paginator

end QueryRules

namespace RulesBuilder

/-- The filters of a builder that goes on from a table. -/
theorem filters_foldl_enter (rules : QueryRules C) (said : List (Stated C)) :
    (said.foldl enter (ofRules rules)).filters =
      filterTable (rules.filters ++ said.filterMap Stated.filter?) := by
  rw [foldl_enter, filterTable, List.map_append]
  exact (OrderedMap.insertAll_append _ _ _).symm

/-- The dynamic sorts of a builder that goes on from a table. -/
theorem dynamicSorts_foldl_enter {rules : QueryRules C} (h : rules.IsBuilt)
    (said : List (Stated C)) :
    (said.foldl enter (ofRules rules)).build.dynamicSorts =
      lastOnes (·.stem) (rules.dynamicSorts ++ said.filterMap Stated.dynamicSort?) := by
  have hstems : ((rules.dynamicSorts.map fun r => (r.stem, r.strategy)).map (·.1)).Nodup := by
    obtain ⟨b, rfl⟩ := h
    simpa [build, Function.comp_def] using b.dynamicSorts.nodup
  have hstart : (ofRules rules).dynamicSorts.entries =
      rules.dynamicSorts.map fun r => (r.stem, r.strategy) := OrderedMap.entries_ofList hstems
  have hback (xs : List (DynamicSortRule C)) : (xs.map fun r => (r.stem, r.strategy)).map
      (fun e => (⟨e.1, e.2⟩ : DynamicSortRule C)) = xs := by
    rw [List.map_map]
    exact List.map_id _
  simp only [foldl_enter, build, OrderedMap.entries_insertLastAll, hstart, ← List.map_append]
  rw [map_lastOnes DynamicSortRule.stem fun _ => rfl, hback]

theorem updated_foldl_enter {rules : QueryRules C} (h : rules.IsBuilt) (said : List (Stated C)) :
    rules.Updated said (said.foldl enter (ofRules rules)).build where
  filterNames := by
    rw [build, filters_foldl_enter, names_filterTable]
  filters rule hrule := by
    rw [build, filters_foldl_enter] at hrule
    obtain ⟨e, he, rfl⟩ := List.mem_map.mp hrule
    obtain ⟨hname, hlast⟩ := last_of_mem_filterTable he
    rwa [hname] at hlast
  sorts name := by
    rw [foldl_enter]
    exact OrderedMap.get?_insertAll _ _ name
  dynamicSorts := dynamicSorts_foldl_enter h said
  uniqueSort := by rw [foldl_enter]; rfl
  defaultSort := by rw [foldl_enter]; rfl
  paginator := by rw [foldl_enter]; rfl

/-- Filters stand under their own names, however a builder came about. -/
theorem ofRules_build_registerEach [Collection C] (rules : QueryRules C)
    (ds : List (Declaration C)) :
    ofRules ((ofRules rules).registerEach ds).build = (ofRules rules).registerEach ds := by
  refine ofRules_build fun e he => ?_
  rw [registerEach_eq, filters_foldl_enter] at he
  exact (last_of_mem_filterTable he).1

end RulesBuilder

/-- **The table of declarations**, some of which may fail. A declaration that is made in place
succeeds exactly if it states something, and otherwise leaves the builder as it is. The table that a
builder makes after declarations, from a table that a builder made before, holds what those state
that state something, as they say it themselves. It does not matter at which points in between a
table was built and gone on from. -/
theorem table_of_declarations [Collection C] {rules : QueryRules C} (h : rules.IsBuilt)
    (ds : List (Declaration C)) :
    (∀ (d : Declaration C) (b : RulesBuilder C),
      ((RulesBuilder.register d b).1.result = .ok () ↔ ∃ s, d.States s) ∧
      ((∃ e, (RulesBuilder.register d b).1.result = .error e) →
        (RulesBuilder.register d b).2 = b)) ∧
    (∃ said, Statements ds said ∧
      rules.Updated said ((RulesBuilder.ofRules rules).registerEach ds).build) ∧
    ∀ before after, ds = before ++ after →
      ((RulesBuilder.ofRules
        ((RulesBuilder.ofRules rules).registerEach before).build).registerEach after).build =
        ((RulesBuilder.ofRules rules).registerEach ds).build := by
  refine ⟨fun d b => ⟨?_, ?_⟩, ⟨statements ds, statements_iff.mpr rfl, ?_⟩, ?_⟩
  · rw [RulesBuilder.result_register, map_eq_ok_iff]
    simp [Declaration.stated_eq_ok_iff]
  · rintro ⟨e, he⟩
    exact RulesBuilder.register_of_error he
  · rw [RulesBuilder.registerEach_eq]
    exact RulesBuilder.updated_foldl_enter h (statements ds)
  · rintro before after rfl
    rw [RulesBuilder.ofRules_build_registerEach]
    simp only [RulesBuilder.registerEach, List.foldl_append]

/-- A table with two filters and two dynamic sorts. -/
def earlierTable : QueryRules Memory :=
  ((RulesBuilder.ofRules {}).registerEach
    [.filtersBy "team" none {}, .filtersBy "age" none {},
      .dynamicallySortsBy "data." (some (.strategy (.byName "data"))),
      .dynamicallySortsBy "meta." (some (.strategy (.byName "meta")))]).build

/-- A class that filters by teams, with a check that a team was asked for. -/
def teamFilter : StrategyClass Memory where
  name := "TeamFilter"
  shape := .filter
  body? := some fun given c => Collection.perform (.restrict [] [("team", given.query)]) c
  checks := [("named", fun query => .ok query)]
  constants := []

/-- How the filter by teams is declared anew. -/
def teamOptions : FilterOptions where
  parameter := some "group"
  allowNil := true
  unlessIf := some (.value (.bool false))
  onlyIf := some (.value (.str "named"))

/-- Declarations that come later. The one of an empty unique sort fails, and so does a filter with a
check that its class does not have. -/
def laterDeclarations : List (Declaration Memory) :=
  [.uniqueSort [.str "uuid"], .filtersBy "name" none {},
    .filtersBy "team" (some (.strategy (.cls teamFilter))) teamOptions, .uniqueSort [],
    .filtersBy "age" (some (.strategy (.cls teamFilter)))
      { onlyIf := some (.value (.str "aged")) },
    .dynamicallySortsBy "data." (some (.strategy (.byName "data")))]

/-- The first filter stays in its place with all that was declared for it last, the first dynamic
sort moves to the end, and the failures change nothing. -/
theorem table_of_laterDeclarations :
    ∃ table, table = ((RulesBuilder.ofRules earlierTable).registerEach laterDeclarations).build ∧
      table.filters.map (·.name) = ["team", "age", "name"] ∧
      (∀ rule ∈ table.filters, rule.name = "team" → rule = {
        name := "team"
        strategy := .cls teamFilter
        parameter := "group"
        allowNil := true
        guards := [⟨.named "named", true⟩, ⟨.always (.bool false), false⟩] }) ∧
      (∀ rule ∈ table.filters, rule.name = "age" →
        rule = ⟨"age", .equality "age", "age", false, []⟩) ∧
      table.dynamicSorts.map (·.stem) = ["meta.", "data."] ∧
      table.uniqueSort = [⟨"uuid", .asc⟩] ∧ table.paginator = .page := by
  have hbuilt : earlierTable.IsBuilt := ⟨_, rfl⟩
  obtain ⟨-, ⟨said, hsaid, hupdated⟩, -⟩ := table_of_declarations hbuilt laterDeclarations
  obtain rfl := statements_iff.mp hsaid
  have hlast {rule : FilterRule Memory} (name : String) (hrule : rule ∈
      ((RulesBuilder.ofRules earlierTable).registerEach laterDeclarations).build.filters)
      (hname : rule.name = name) : ((earlierTable.filters ++
        (statements laterDeclarations).filterMap Stated.filter?).filter (·.name == name)).getLast? =
          some rule :=
    hname ▸ hupdated.filters rule hrule
  refine ⟨_, rfl, ?_, fun rule hrule hname => ?_, fun rule hrule hname => ?_, ?_, ?_, ?_⟩
  · rw [hupdated.filterNames]
    rfl
  · exact (Option.some.inj (hlast "team" hrule hname)).symm
  · exact (Option.some.inj (hlast "age" hrule hname)).symm
  · rw [hupdated.dynamicSorts]
    rfl
  · rw [hupdated.uniqueSort]
    rfl
  · rw [hupdated.paginator]
    rfl

end ResourceQuery
