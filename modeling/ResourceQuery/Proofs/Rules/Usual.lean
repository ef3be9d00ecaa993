import ResourceQuery.Proofs.Query.Run
import ResourceQuery.Rules.Builder

/-!
# Usual rules

Declarations that name no strategy and no condition of their own make a table whose filters
compare an attribute with the query, whose sorts order by the attribute, and whose pages are
numbered.

Headlines:
* **`QueryRules.IsUsual`**: such a table; **`QueryRules.SortsUsually`**: as far as sorts go.
* **`Declaration.IsUsual`**: the declarations that make one.
* **`RulesBuilder.isUsual_declare`**: a usual declaration keeps a table usual.
* **`RulesBuilder.isUsual_of_declarations`**: any number of them make a usual table.
-/

namespace ResourceQuery

namespace OrderedMap

variable {α : Type}

/-- The values after a value is entered. -/
theorem mem_values_insert {name : String} {value v : α} {m : OrderedMap α}
    (h : v ∈ (m.insert name value).values) : v = value ∨ v ∈ m.values := by
  obtain ⟨entries, _⟩ := m
  simp only [values, insert] at h ⊢
  induction entries with
  | nil => simpa [putEntry] using h
  | cons e rest ih =>
    obtain ⟨k, w⟩ := e
    by_cases hk : k = name
    · simp only [putEntry, if_pos hk, List.map_cons, List.mem_cons] at h ⊢
      rcases h with h | h
      · exact Or.inl h
      · exact Or.inr (Or.inr h)
    · simp only [putEntry, if_neg hk, List.map_cons, List.mem_cons] at h ⊢
      rcases h with h | h
      · exact Or.inr (Or.inl h)
      · rcases ih (List.nodup_cons.mp ‹_›).2 h with h | h
        · exact Or.inl h
        · exact Or.inr (Or.inr h)

end OrderedMap

variable {C : Type} [Collection C]

/-- A filter rule that compares an attribute with the query, whenever that is present. -/
structure FilterRule.IsUsual (r : FilterRule C) : Prop where
  strategy : r.strategy = .equality r.name
  guards : r.guards = []

/-- A table of usual filters and sorts, with an ordering written out as the default sort and
numbered pages. -/
structure QueryRules.IsUsual (rules : QueryRules C) : Prop where
  filters : ∀ r ∈ rules.filters, r.IsUsual
  sorts : ∀ name s, rules.sorts.get? name = some s → s = .byName name
  dynamicSorts : rules.dynamicSorts = []
  defaultSort : ∀ usual, rules.defaultSort = some usual → ∃ clauses, usual = .clauses clauses
  paginator : rules.paginator = .page

/-- A table whose sorts are usual, whatever else it holds. -/
structure QueryRules.SortsUsually (rules : QueryRules C) : Prop where
  sorts : ∀ name s, rules.sorts.get? name = some s → s = .byName name
  dynamicSorts : rules.dynamicSorts = []
  defaultSort : ∀ usual, rules.defaultSort = some usual → ∃ clauses, usual = .clauses clauses

theorem QueryRules.IsUsual.sortsUsually {rules : QueryRules C} (h : rules.IsUsual) :
    rules.SortsUsually :=
  ⟨h.sorts, h.dynamicSorts, h.defaultSort⟩

/-- A declaration that names no strategy and no condition of its own. -/
def Declaration.IsUsual : Declaration C → Prop
  | .filtersBy _ strategy options =>
    strategy.isNone ∧ options.onlyIf.isNone ∧ options.unlessIf.isNone
  | .sortsBy _ strategy => strategy.isNone
  | .dynamicallySortsBy .. => False
  | .uniqueSort _ => True
  | .defaultSort given => ∃ v, given = .value v
  | .paginatesWith paginator => paginator = .page

namespace RulesBuilder

/-- The rule of a usual filter declaration. -/
theorem isUsual_filterRule {name : String} {strategy : Option (Declared C)}
    {options : FilterOptions} {rule : FilterRule C}
    (husual : (Declaration.filtersBy name strategy options).IsUsual)
    (h : filterRule name strategy options = .ok rule) : rule.IsUsual := by
  obtain ⟨hstrategy, honly, hunless⟩ := husual
  rw [Option.isNone_iff_eq_none] at hstrategy honly hunless
  unfold filterRule at h
  rw [hstrategy, honly, hunless] at h
  cases h
  exact ⟨rfl, rfl⟩

/-- **A usual declaration keeps a table usual.** -/
theorem isUsual_declare {b b' : RulesBuilder C} {d : Declaration C} (hb : b.build.IsUsual)
    (hd : d.IsUsual) (h : (b.declare d).result = .ok b') : b'.build.IsUsual := by
  cases d with
  | filtersBy name strategy options =>
    obtain ⟨rule, hrule, h⟩ := Traced.result_bind_eq_ok_iff.mp h
    obtain ⟨_, _, h⟩ := Traced.result_bind_eq_ok_iff.mp h
    cases h
    refine { hb with filters := fun r hr => ?_ }
    rcases OrderedMap.mem_values_insert hr with rfl | hr
    · exact isUsual_filterRule hd hrule
    · exact hb.filters r hr
  | sortsBy name strategy =>
    obtain ⟨s, hs, h⟩ := Traced.result_bind_eq_ok_iff.mp h
    obtain ⟨_, _, h⟩ := Traced.result_bind_eq_ok_iff.mp h
    cases h
    rw [Option.isNone_iff_eq_none.mp hd] at hs
    cases hs
    refine { hb with sorts := fun other s hs => ?_ }
    by_cases hname : other = name
    · subst hname
      have hself := OrderedMap.get?_insert_self other (Strategy.byName (C := C) other) b.sorts
      exact (Option.some.inj (hself.symm.trans hs)).symm
    · have hother := OrderedMap.get?_insert_of_ne hname (Strategy.byName (C := C) name) b.sorts
      exact hb.sorts other s (hother.symm.trans hs)
  | dynamicallySortsBy stem strategy => exact hd.elim
  | uniqueSort orderings =>
    obtain ⟨clauses, _, h⟩ := Traced.result_bind_eq_ok_iff.mp h
    cases h
    exact { hb with }
  | defaultSort given =>
    obtain ⟨v, rfl⟩ := hd
    obtain ⟨usual, husual, h⟩ := Traced.result_bind_eq_ok_iff.mp h
    cases h
    refine { hb with defaultSort := fun s hs => ?_ }
    cases hs
    show ∃ clauses, usual = .clauses clauses
    have hread : (normalizeOrder v).map DefaultSort.clauses = .ok usual := husual
    cases hclauses : normalizeOrder v with
    | error e =>
      rw [hclauses] at hread
      cases hread
    | ok clauses =>
      rw [hclauses] at hread
      cases hread
      exact ⟨clauses, rfl⟩
  | paginatesWith paginator =>
    cases h
    exact { hb with paginator := hd }

/-- **Usual declarations make a usual table.** -/
theorem isUsual_of_declarations {declarations : List (Declaration C)}
    (hd : ∀ d ∈ declarations, d.IsUsual) {b b' : RulesBuilder C} (hb : b.build.IsUsual)
    (h : (declarations.foldlM RulesBuilder.declare b).result = .ok b') : b'.build.IsUsual := by
  induction declarations generalizing b with
  | nil =>
    cases h
    exact hb
  | cons d rest ih =>
    rw [List.forall_mem_cons] at hd
    rw [List.foldlM_cons] at h
    obtain ⟨next, hnext, h⟩ := Traced.result_bind_eq_ok_iff.mp h
    exact ih hd.2 (isUsual_declare hb hd.1 hnext) h

/-- The table without declarations is usual. -/
theorem isUsual_empty : (ofRules ({} : QueryRules C)).build.IsUsual where
  filters _ hr := by cases hr
  sorts _ _ hs := by cases hs
  dynamicSorts := rfl
  defaultSort _ hs := by cases hs
  paginator := rfl

end RulesBuilder

end ResourceQuery
