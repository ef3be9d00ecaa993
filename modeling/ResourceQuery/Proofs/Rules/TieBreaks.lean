import ResourceQuery.Collection.Recorder
import ResourceQuery.Proofs.Rules.OrderSpelling
import ResourceQuery.Proofs.Rules.Table
import ResourceQuery.Query.Stages

/-!
# The clauses that break ties

A sort is total only if the clauses that break ties are there at all. Without a declaration there is
one, by the identifier. A declaration is asked for at least one ordering, not for at least one
clause, and an ordering can be hollow: an empty map, or a list or a tuple that holds nothing but
hollow ones. This is the only way to a table without a clause that breaks ties.

Headlines:
* **`Hollow`**, **`normalizeOrder_eq_nil_iff`**: the orderings without a clause.
* **`judged_uniqueClauses`**: which declarations of clauses to break ties are refused.
* **`QueryRules.MadeBy`**: the tables that declarations make, and the declarations.
* **`RulesBuilder.uniqueSort_register_eq_nil_iff`**, **`uniqueSort_registerEach_eq_nil_iff`**: when one
  declaration leaves no clause to break ties, and when a run of them does.
* **`QueryRules.sort_ends`**: the last thing that a sort asks for is to break ties.
* **`QueryRules.tieBreaks_of_madeBy`**: all of this at once.
-/

namespace ResourceQuery

/-! ## Orderings without a clause -/

/-- An ordering that has no clause although it can be read. -/
inductive Hollow : Value → Prop
  | map : Hollow (.map [])
  | list {items : List Value} : (∀ item ∈ items, Hollow item) → Hollow (.list items)
  | tuple {items : List Value} : (∀ item ∈ items, Hollow item) → Hollow (.tuple items)

theorem hollow_map_iff {entries : List (Value × Value)} : Hollow (.map entries) ↔ entries = [] := by
  constructor
  · rintro ⟨⟩
    rfl
  · rintro rfl
    exact .map

theorem hollow_list_iff {items : List Value} :
    Hollow (.list items) ↔ ∀ item ∈ items, Hollow item :=
  ⟨fun | .list h => h, .list⟩

theorem hollow_tuple_iff {items : List Value} :
    Hollow (.tuple items) ↔ ∀ item ∈ items, Hollow item :=
  ⟨fun | .tuple h => h, .tuple⟩

theorem not_hollow_of_spelling? {v : Value} {s : String} (h : v.spelling? = some s) :
    ¬ Hollow v := by
  rintro (- | - | -) <;> cases h

theorem not_hollow_of_isPair {items : List Value} (h : IsPair items) : ¬ Hollow (.tuple items) := by
  obtain ⟨name, direction, rfl, hname, -⟩ := h
  obtain ⟨s, hs⟩ := Option.isSome_iff_exists.mp hname
  intro hhollow
  exact not_hollow_of_spelling? hs (hollow_tuple_iff.mp hhollow name List.mem_cons_self)

theorem normalizeAll_eq_nil_iff {items : List Value} :
    normalizeAll items = .ok [] ↔ ∀ item ∈ items, normalizeOrder item = .ok [] := by
  induction items with
  | nil => simp [normalizeAll]
  | cons item items ih =>
    rw [List.forall_mem_cons, ← ih, normalizeAll]
    cases normalizeOrder item <;> cases normalizeAll items <;>
      simp [bind, Except.bind, pure, Except.pure]

theorem clausesOfMap_eq_nil_iff {entries : List (Value × Value)} :
    clausesOfMap entries = .ok [] ↔ entries = [] := by
  cases entries with
  | nil => simp [clausesOfMap]
  | cons entry entries =>
    rw [clausesOfMap]
    cases declaredDirection entry.2 <;> cases clausesOfMap entries <;>
      simp [bind, Except.bind, pure, Except.pure]

/-- **The orderings without a clause** are the hollow ones. -/
theorem normalizeOrder_eq_nil_iff {v : Value} : normalizeOrder v = .ok [] ↔ Hollow v := by
  induction v using Value.nesting_induction with
  | list items ih =>
    rw [normalizeOrder_list, normalizeAll_eq_nil_iff, hollow_list_iff]
    exact forall₂_congr ih
  | tuple items ih =>
    by_cases hpair : IsPair items
    · obtain ⟨clause, hclause⟩ := exists_clause_of_isPair hpair
      simp [hclause, not_hollow_of_isPair hpair]
    · rw [normalizeOrder_nested hpair, normalizeAll_eq_nil_iff, hollow_tuple_iff]
      exact forall₂_congr ih
  | other v hlist htuple =>
    cases v with
    | list items => exact absurd rfl (hlist items)
    | tuple items => exact absurd rfl (htuple items)
    | map entries =>
      rw [normalizeOrder, clausesOfMap_eq_nil_iff, hollow_map_iff]
    | _ =>
      constructor
      · intro h
        simp [normalizeOrder] at h
      · intro h
        cases h

/-! ## Declarations of clauses to break ties -/

/-- Orderings that a declaration of clauses to break ties is refused for. -/
def RefusedOrderings (orderings : List Value) : Prop :=
  orderings = [] ∨ ∃ o ∈ orderings, Misspelt o

/-- Orderings by which no tie can be broken. -/
def HollowOrderings (orderings : List Value) : Prop :=
  orderings ≠ [] ∧ ∀ o ∈ orderings, Hollow o

namespace RulesBuilder

/-- **A declaration of clauses to break ties** is refused exactly if no ordering is given or one
cannot be read. -/
theorem judged_uniqueClauses (orderings : List Value) :
    Judged (uniqueClauses orderings) (RefusedOrderings orderings) := by
  unfold uniqueClauses RefusedOrderings
  cases orderings with
  | nil => exact ⟨fun _ => ⟨_, rfl⟩, fun h => absurd (Or.inl rfl) h⟩
  | cons o os =>
    exact (judged_normalizeAll fun item _ => judged_normalizeOrder item).congr (by simp)

theorem uniqueClauses_eq_nil_iff {orderings : List Value} :
    uniqueClauses orderings = .ok [] ↔ HollowOrderings orderings := by
  unfold uniqueClauses HollowOrderings
  cases orderings with
  | nil => simp
  | cons o os =>
    simp only [List.isEmpty_cons, Bool.false_eq_true, if_false, normalizeAll_eq_nil_iff,
      normalizeOrder_eq_nil_iff, ne_eq, reduceCtorEq, not_false_eq_true, true_and]

theorem not_refused_of_hollow {orderings : List Value} (h : HollowOrderings orderings) :
    ¬ RefusedOrderings orderings := by
  intro hrefused
  obtain ⟨fault, hfault⟩ := (judged_uniqueClauses orderings).refused hrefused
  cases hfault.symm.trans (uniqueClauses_eq_nil_iff.mpr h)

end RulesBuilder

variable {C : Type}

/-- Declarations of which the last one of clauses to break ties that is not refused has none. -/
def LeavesTies (ds : List (Declaration C)) : Prop :=
  ∃ before orderings after, ds = before ++ .uniqueSort orderings :: after ∧
    HollowOrderings orderings ∧ ∀ later, .uniqueSort later ∈ after → RefusedOrderings later

theorem leavesTies_cons_iff {d : Declaration C} {ds : List (Declaration C)} :
    LeavesTies (d :: ds) ↔ LeavesTies ds ∨
      (∃ orderings, .uniqueSort orderings = d ∧ HollowOrderings orderings) ∧
        ∀ later, .uniqueSort later ∈ ds → RefusedOrderings later := by
  constructor
  · rintro ⟨before, orderings, after, heq, hhollow, hafter⟩
    cases before with
    | nil =>
      cases heq
      exact Or.inr ⟨⟨orderings, rfl, hhollow⟩, hafter⟩
    | cons first before =>
      cases heq
      exact Or.inl ⟨before, orderings, after, rfl, hhollow, hafter⟩
  · rintro (⟨before, orderings, after, rfl, h⟩ | ⟨⟨orderings, rfl, hhollow⟩, hafter⟩)
    · exact ⟨d :: before, orderings, after, rfl, h⟩
    · exact ⟨[], orderings, ds, rfl, hhollow, hafter⟩

namespace RulesBuilder

variable [Collection C]

/-- Only a declaration of clauses to break ties changes these. -/
theorem uniqueSort_register {d : Declaration C} (h : ∀ orderings, .uniqueSort orderings ≠ d)
    (b : RulesBuilder C) : (register d b).2.uniqueSort = b.uniqueSort := by
  rw [builder_register]
  cases d with
  | filtersBy name strategy options =>
    rw [Declaration.stated]
    cases filterRule name strategy options <;> rfl
  | sortsBy name strategy =>
    rw [Declaration.stated]
    cases strategyOr (.byName name) name strategy <;> rfl
  | dynamicallySortsBy stem strategy =>
    rw [Declaration.stated]
    cases dynamicStrategy stem strategy <;> rfl
  | uniqueSort orderings => exact absurd rfl (h orderings)
  | defaultSort given =>
    rw [Declaration.stated]
    cases defaultSortOf given <;> rfl
  | paginatesWith paginator => rfl

/-- **One declaration** leaves no clause to break ties if it states none, or if there was none and it
is not a declaration of such clauses that is accepted. -/
theorem uniqueSort_register_eq_nil_iff {d : Declaration C} {b : RulesBuilder C} :
    (register d b).2.uniqueSort = [] ↔
      (∃ orderings, .uniqueSort orderings = d ∧ HollowOrderings orderings) ∨
        b.uniqueSort = [] ∧ ∀ orderings, .uniqueSort orderings = d → RefusedOrderings orderings := by
  by_cases h : ∃ orderings, .uniqueSort orderings = d
  · obtain ⟨orderings, rfl⟩ := h
    have hjudged := judged_uniqueClauses orderings
    rw [builder_register, Declaration.stated]
    simp only [Declaration.uniqueSort.injEq, exists_eq_left, forall_eq, ← uniqueClauses_eq_nil_iff]
    by_cases hrefused : RefusedOrderings orderings
    · obtain ⟨fault, hfault⟩ := hjudged.refused hrefused
      simp [hfault, hrefused, Except.map, Except.toOption]
    · obtain ⟨clauses, hclauses⟩ := hjudged.read hrefused
      simp [hclauses, hrefused, Except.map, Except.toOption, enter]
  · have hother (orderings : List Value) : .uniqueSort orderings ≠ d := fun heq => h ⟨_, heq⟩
    rw [uniqueSort_register hother]
    simp [hother]

/-- **A run of declarations** leaves no clause to break ties if the last one of such clauses that is
accepted states none, or if there was none and none is accepted. -/
theorem uniqueSort_registerEach_eq_nil_iff {b : RulesBuilder C} {ds : List (Declaration C)} :
    (b.registerEach ds).uniqueSort = [] ↔ LeavesTies ds ∨
      b.uniqueSort = [] ∧ ∀ later, .uniqueSort later ∈ ds → RefusedOrderings later := by
  induction ds generalizing b with
  | nil => simp [registerEach, LeavesTies]
  | cons d ds ih =>
    rw [registerEach, List.foldl_cons, ← registerEach, ih, uniqueSort_register_eq_nil_iff,
      leavesTies_cons_iff]
    simp only [List.mem_cons, or_imp, forall_and]
    rw [or_and_right, and_assoc, or_assoc]

/-- A declaration of clauses to break ties is made unless it is refused. -/
theorem judged_register (orderings : List Value) (b : RulesBuilder C) :
    Judged (register (.uniqueSort orderings) b).1.result (RefusedOrderings orderings) := by
  rw [result_register, Declaration.stated]
  exact ((judged_uniqueClauses orderings).map _).map _

end RulesBuilder

/-! ## Tables and sorts -/

namespace QueryRules

variable [Collection C]

/-- The tables that declarations make, some of which may be refused, from the default rules on or
from a table that was made before. -/
inductive MadeBy : List (Declaration C) → QueryRules C → Prop
  | default : MadeBy [] {}
  | further {before ds : List (Declaration C)} {rules : QueryRules C} :
    MadeBy before rules → MadeBy (before ++ ds) ((RulesBuilder.ofRules rules).registerEach ds).build

/-- It does not matter at which points in between a table was built. -/
theorem MadeBy.eq_build {ds : List (Declaration C)} {rules : QueryRules C} (h : MadeBy ds rules) :
    rules = ((RulesBuilder.ofRules {}).registerEach ds).build := by
  induction h with
  | default => rfl
  | further _ ih =>
    rw [ih, RulesBuilder.ofRules_build_registerEach]
    simp only [RulesBuilder.registerEach, List.foldl_append]

theorem uniqueSort_eq_nil_iff_of_madeBy {ds : List (Declaration C)} {rules : QueryRules C}
    (h : MadeBy ds rules) : rules.uniqueSort = [] ↔ LeavesTies ds := by
  have hstart : (RulesBuilder.ofRules ({} : QueryRules C)).uniqueSort ≠ [] := List.cons_ne_nil _ _
  rw [h.eq_build, RulesBuilder.build, RulesBuilder.uniqueSort_registerEach_eq_nil_iff]
  simp [hstart]

/-- **The last thing that a sort asks for** is to break ties, of what everything before came to. -/
theorem sort_ends {rules : QueryRules C} {settings : Settings} {raw : Value}
    {c sorted : Selection C} (h : (rules.sort settings raw c).result = .ok sorted) :
    ∃ ordered before, (rules.sort settings raw c).entries =
        before ++ (Collection.perform (.orderByClauses rules.uniqueSort) ordered).entries ∧
      (Collection.perform (.orderByClauses rules.uniqueSort) ordered).result = .ok sorted := by
  have hsplit : rules.sort settings raw c =
      (do
        let params ← Traced.ofExcept (SortParam.readAll raw)
        Traced.ofExcept (rules.ensurePermitted params)
        let ordered ← rules.requestedOrder settings params c
        Traced.log (.appendingUniqueSort rules.uniqueSort)
        return ordered) >>= Collection.perform (.orderByClauses rules.uniqueSort) := by
    simp only [sort, bind_assoc, pure_bind]
  rw [hsplit] at h ⊢
  obtain ⟨ordered, hordered, hlast⟩ := Traced.result_bind_eq_ok_iff.mp h
  rw [Traced.bind_of_ok hordered]
  exact ⟨ordered, _, rfl, hlast⟩

/-- **Ties are broken** by every table that declarations make, unless the last declaration of clauses
to break ties that was not refused is a hollow one. Such a declaration is refused exactly if it is
given no ordering or one that cannot be read; a hollow one is not. The last thing that a sort asks
for is to break ties by the clauses of its table. -/
theorem tieBreaks_of_madeBy {ds : List (Declaration C)} {rules : QueryRules C}
    (h : MadeBy ds rules) :
    (rules.uniqueSort = [] ↔ LeavesTies ds) ∧
    (∀ (orderings : List Value) (b : RulesBuilder C),
      ((∃ fault, (RulesBuilder.register (.uniqueSort orderings) b).1.result =
        .error (.misconfigured fault)) ↔ RefusedOrderings orderings) ∧
      (¬ RefusedOrderings orderings →
        (RulesBuilder.register (.uniqueSort orderings) b).1.result = .ok ()) ∧
      (HollowOrderings orderings → ¬ RefusedOrderings orderings)) ∧
    ∀ (settings : Settings) (raw : Value) (c sorted : Selection C),
      (rules.sort settings raw c).result = .ok sorted →
      ∃ ordered before, (rules.sort settings raw c).entries =
          before ++ (Collection.perform (.orderByClauses rules.uniqueSort) ordered).entries ∧
        (Collection.perform (.orderByClauses rules.uniqueSort) ordered).result = .ok sorted := by
  refine ⟨uniqueSort_eq_nil_iff_of_madeBy h, fun orderings b => ?_, fun _ _ _ _ => sort_ends⟩
  have hjudged := RulesBuilder.judged_register orderings b
  refine ⟨hjudged.refused_iff, fun hread => ?_, RulesBuilder.not_refused_of_hollow⟩
  obtain ⟨_, hok⟩ := hjudged.read hread
  exact hok

/-- A declaration of an empty list of clauses to break ties, after one of a name, and a refused one
after it. -/
def hollowDeclarations : List (Declaration Recorder) :=
  [.uniqueSort [.str "uuid"], .uniqueSort [.list []], .uniqueSort [.int 5]]

/-- The table that they make. -/
def hollowTable : QueryRules Recorder :=
  ((RulesBuilder.ofRules {}).registerEach hollowDeclarations).build

/-- The empty list is not refused, and a sort then breaks ties by no clause. -/
theorem tieBreaks_of_hollowDeclarations :
    (RulesBuilder.register (.uniqueSort [.list []]) (RulesBuilder.ofRules hollowTable)).1.result =
      .ok () ∧
    hollowTable.uniqueSort = [] ∧
    (hollowTable.sort .default (.str "") (.live ⟨0, []⟩)).accesses = [.apply ⟨.orderBy, [], []⟩] := by
  have hmade : MadeBy hollowDeclarations hollowTable := MadeBy.default.further
  obtain ⟨hnil, hdeclare, -⟩ := tieBreaks_of_madeBy hmade
  have hhollow : HollowOrderings [.list []] := ⟨List.cons_ne_nil _ _, by simpa using .list nofun⟩
  have hshape : ¬ IsSpelling (.int 5) := by
    rintro (h | ⟨_, h⟩ | ⟨_, h⟩ | ⟨_, h⟩) <;> cases h
  have hrefused : RefusedOrderings [.int 5] :=
    Or.inr ⟨.int 5, List.mem_cons_self, .int 5, .here _, .shape hshape⟩
  obtain ⟨-, haccepted, hread⟩ := hdeclare [.list []] (RulesBuilder.ofRules hollowTable)
  refine ⟨haccepted (hread hhollow), hnil.mpr ⟨[.uniqueSort [.str "uuid"]], _,
    [.uniqueSort [.int 5]], rfl, hhollow, fun later hlater => ?_⟩, rfl⟩
  cases List.mem_singleton.mp hlater
  exact hrefused

end QueryRules

end ResourceQuery
