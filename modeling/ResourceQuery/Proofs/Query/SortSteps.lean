import Mathlib.Data.List.Forall2
import ResourceQuery.Collection.Recorder
import ResourceQuery.Proofs.OrderedMap
import ResourceQuery.Proofs.Query.Stages

/-!
# What sorting does to a collection

The sort stage of any rule table on any collection, step by step. Either some attribute has no
rule, and then nothing is asked of the collection; or every token of the request becomes one step,
between the step that drops the old order and the one that breaks ties.

Headlines:
* **`SortStep`**: a call on the collection, or a strategy that is applied to it.
* **`QueryRules.Permits`**, **`QueryRules.Serves`**: which attributes have a rule, and the step
  that serves a token.
* **`Traced.SameCalls`**: the same result by the same calls, whatever is logged on the way.
* **`QueryRules.sort_of_unpermitted`**: every attribute without a rule is reported, once, in the
  order of the request, and nothing else is done.
* **`QueryRules.sameCalls_sort`**: the steps, if every attribute has a rule.
* **`QueryRules.sort_steps`**: both together.
-/

namespace ResourceQuery

/-! ## The same calls -/

namespace Traced

variable {α β : Type}

/-- The same result, and the same asked of collections on the way. -/
structure SameCalls (x y : Traced α) : Prop where
  result : x.result = y.result
  accesses : x.accesses = y.accesses

namespace SameCalls

theorem refl (x : Traced α) : SameCalls x x := ⟨rfl, rfl⟩

theorem trans {x y z : Traced α} (hxy : SameCalls x y) (hyz : SameCalls y z) : SameCalls x z :=
  ⟨hxy.result.trans hyz.result, hxy.accesses.trans hyz.accesses⟩

theorem bind {x y : Traced α} {f g : α → Traced β} (h : SameCalls x y)
    (hfg : ∀ a, SameCalls (f a) (g a)) : SameCalls (x >>= f) (y >>= g) := by
  have hresult := h.result
  cases hx : x.result with
  | error e =>
    rw [hx] at hresult
    rw [bind_of_error hx, bind_of_error hresult.symm]
    exact ⟨rfl, h.accesses⟩
  | ok a =>
    rw [hx] at hresult
    refine ⟨?_, ?_⟩
    · rw [result_bind_of_ok hx, result_bind_of_ok hresult.symm, (hfg a).result]
    · rw [accesses_bind_of_ok hx, accesses_bind_of_ok hresult.symm, h.accesses, (hfg a).accesses]

/-- What is logged is no call. -/
theorem log_bind (event : LogEvent) (f : Unit → Traced β) : SameCalls (log event >>= f) (f ()) :=
  ⟨result_bind_of_ok (result_log event) f, accesses_bind_of_ok (result_log event) f⟩

/-- Two runs of steps that make the same calls one by one. -/
theorem foldlM {γ : Type} {f : α → β → Traced α} {g : α → γ → Traced α} {bs : List β}
    {cs : List γ} (h : List.Forall₂ (fun b c => ∀ a, SameCalls (f a b) (g a c)) bs cs) (a : α) :
    SameCalls (bs.foldlM f a) (cs.foldlM g a) := by
  induction h generalizing a with
  | nil => exact refl _
  | cons hbc _ ih =>
    rw [List.foldlM_cons, List.foldlM_cons]
    exact (hbc a).bind ih

end SameCalls

end Traced

/-! ## Steps -/

variable {C : Type}

/-- One thing that sorting does to a collection. -/
inductive SortStep (C : Type) where
  | ask (call : Call)
  | apply (s : Strategy C) (task : Task)

/-- Do it. -/
def SortStep.run [Collection C] (c : Selection C) : SortStep C → Traced (Selection C)
  | .ask call => Collection.perform call c
  | .apply s task => s.apply task c

/-- The step of a default sort. -/
def DefaultSort.step : DefaultSort C → SortStep C
  | .clauses ordering => .ask (.orderByClauses ordering)
  | .strategy s => .apply s .defaultSort

namespace QueryRules

variable {rules : QueryRules C} {settings : Settings}

/-- An attribute has a rule: one for exactly this name, or one for names that start in this way. -/
def Permits (rules : QueryRules C) (name : String) : Prop :=
  (∃ s, rules.sorts.get? name = some s) ∨
    ∃ rule ∈ rules.dynamicSorts, ∃ rest, name = rule.stem ++ rest

/-- The step that serves a token: by the rule for its attribute or, without one, by the first rule
whose stem the attribute starts with. -/
inductive Serves (rules : QueryRules C) (p : SortParam) : SortStep C → Prop
  | static {s : Strategy C} : rules.sorts.get? p.name = some s →
      Serves rules p (.apply s (.sort p.direction))
  | dynamic {before after : List (DynamicSortRule C)} {rule : DynamicSortRule C} {rest : String} :
      rules.sorts.get? p.name = none → rules.dynamicSorts = before ++ rule :: after →
      (∀ other ∈ before, ∀ rest, p.name ≠ other.stem ++ rest) → p.name = rule.stem ++ rest →
      Serves rules p (.apply rule.strategy (.dynamicSort rest p.direction))

/-- The steps that set the order, from those that serve the tokens: the order before is dropped if
there is another one to replace it, and without tokens the default sort serves. -/
def orderSteps (rules : QueryRules C) (settings : Settings) (served : List (SortStep C)) :
    List (SortStep C) :=
  (if settings.replaceExistingOrder = true ∧ (served ≠ [] ∨ rules.defaultSort ≠ none) then
      [.ask (.reorder [])] else [])
    ++ if served = [] then rules.defaultSort.toList.map DefaultSort.step else served

/-- All steps. Those that break ties come last. -/
def sortSteps (rules : QueryRules C) (settings : Settings) (served : List (SortStep C)) :
    List (SortStep C) :=
  rules.orderSteps settings served ++ [.ask (.orderByClauses rules.uniqueSort)]

/-! ## Rules for attributes -/

/-- A name starts with a stem exactly if it is the stem and a rest. -/
theorem accepts_iff {rule : DynamicSortRule C} {name : String} :
    rule.accepts name = true ↔ ∃ rest, name = rule.stem ++ rest := by
  unfold DynamicSortRule.accepts
  rw [List.isPrefixOf_iff_prefix]
  constructor
  · rintro ⟨rest, hrest⟩
    exact ⟨String.ofList rest, String.toList_inj.mp (by simp [← hrest])⟩
  · rintro ⟨rest, rfl⟩
    exact ⟨rest.toList, (String.toList_append ..).symm⟩

theorem withoutStem_append (stem rest : String) :
    SortRule.withoutStem stem (stem ++ rest) = rest := by
  simp [SortRule.withoutStem]

theorem isSortPermitted_iff {name : String} :
    rules.isSortPermitted name = true ↔ rules.Permits name := by
  unfold isSortPermitted findSort Permits
  cases hstatic : rules.sorts.get? name with
  | some s => simp
  | none => simp [List.find?_isSome, accepts_iff]

/-- The step that serves a token is that of the rule which is found for its attribute. -/
theorem serves_iff {p : SortParam} {step : SortStep C} :
    rules.Serves p step ↔ ∃ rule, rules.findSort p.name = some rule ∧
      step = .apply rule.strategy (rule.task p.name p.direction) := by
  unfold findSort
  constructor
  · intro h
    cases h with
    | @static s hs =>
      rw [hs]
      exact ⟨.static p.name s, rfl, rfl⟩
    | @dynamic before after rule rest hnone hrules hbefore hname =>
      have hfirst : rules.dynamicSorts.find? (·.accepts p.name) = some rule := by
        refine List.find?_eq_some_iff_append.mpr
          ⟨accepts_iff.mpr ⟨rest, hname⟩, before, after, hrules, fun other hother => ?_⟩
        simp only [Bool.not_eq_true', Bool.eq_false_iff, ne_eq, accepts_iff, not_exists]
        exact hbefore other hother
      rw [hnone, hfirst]
      refine ⟨.dynamic rule, rfl, ?_⟩
      rw [SortRule.strategy, SortRule.task, hname, withoutStem_append]
  · rintro ⟨rule, hrule, rfl⟩
    cases hstatic : rules.sorts.get? p.name with
    | some s =>
      rw [hstatic] at hrule
      cases hrule
      exact .static hstatic
    | none =>
      rw [hstatic] at hrule
      obtain ⟨found, hfound, rfl⟩ := Option.map_eq_some_iff.mp hrule
      obtain ⟨haccepts, before, after, hrules, hbefore⟩ :=
        List.find?_eq_some_iff_append.mp hfound
      obtain ⟨rest, hname⟩ := accepts_iff.mp haccepts
      rw [SortRule.strategy, SortRule.task, hname, withoutStem_append]
      refine .dynamic hstatic hrules (fun other hother rest' hname' => ?_) hname
      have haccepts' := accepts_iff.mpr ⟨rest', hname'⟩
      simpa [haccepts'] using hbefore other hother

/-- Permitted tokens are served. -/
theorem exists_served {params : List SortParam} (h : ∀ p ∈ params, rules.Permits p.name) :
    ∃ served, List.Forall₂ rules.Serves params served := by
  induction params with
  | nil => exact ⟨[], .nil⟩
  | cons p rest ih =>
    rw [List.forall_mem_cons] at h
    obtain ⟨served, hserved⟩ := ih h.2
    obtain ⟨rule, hrule⟩ := Option.isSome_iff_exists.mp (isSortPermitted_iff.mpr h.1)
    exact ⟨_, .cons (serves_iff.mpr ⟨rule, hrule, rfl⟩) hserved⟩

theorem permits_of_serves {params : List SortParam} {served : List (SortStep C)}
    (h : List.Forall₂ rules.Serves params served) : ∀ p ∈ params, rules.Permits p.name := by
  induction h with
  | nil =>
    intro p hp
    cases hp
  | cons hp _ ih =>
    obtain ⟨rule, hrule, -⟩ := serves_iff.mp hp
    exact List.forall_mem_cons.mpr
      ⟨isSortPermitted_iff.mp (Option.isSome_iff_exists.mpr ⟨rule, hrule⟩), ih⟩

/-! ## Attributes without a rule -/

theorem mem_unpermitted {params : List SortParam} {name : String} :
    name ∈ rules.unpermitted params ↔
      (∃ p ∈ params, p.name = name) ∧ ¬ rules.Permits name := by
  simp [unpermitted, ← isSortPermitted_iff]

variable [Collection C] {given : Option String} {c : Selection C}

/-- **Attributes without a rule** are reported all at once, each where it is first requested, and
nothing else is done. -/
theorem sort_of_unpermitted (h : ∃ p ∈ sortParams (.ofText given), ¬ rules.Permits p.name) :
    rules.sort settings (.ofText given) c =
      .fail (.unpermitted (rules.unpermitted (sortParams (.ofText given)))) := by
  obtain ⟨p, hp, hname⟩ := h
  have hrefused : rules.unpermitted (sortParams (.ofText given)) ≠ [] :=
    List.ne_nil_of_mem (mem_unpermitted.mpr ⟨⟨p, hp, rfl⟩, hname⟩)
  rw [sort_ofText, ensurePermitted_of_refused hrefused]
  rfl

/-! ## The steps of a permitted request -/

theorem sameCalls_sortBy {p : SortParam} {step : SortStep C} (h : rules.Serves p step)
    (c : Selection C) : Traced.SameCalls (rules.sortBy c p) (step.run c) := by
  obtain ⟨rule, hrule, rfl⟩ := serves_iff.mp h
  unfold sortBy
  rw [hrule]
  exact .log_bind _ _

theorem dropOrder_eq (c : Selection C) :
    dropOrder settings c =
      (if settings.replaceExistingOrder = true then [SortStep.ask (.reorder [])] else []).foldlM
        SortStep.run c := by
  unfold dropOrder
  by_cases h : settings.replaceExistingOrder = true
  · rw [if_pos h, if_pos h, List.foldlM_cons]
    exact (bind_pure _).symm
  · rw [if_neg h, if_neg h, List.foldlM_nil]

theorem sortByDefault_eq (usual : DefaultSort C) (c : Selection C) :
    sortByDefault c usual = [usual.step].foldlM SortStep.run c := by
  rw [List.foldlM_cons]
  cases usual <;> exact (bind_pure _).symm

theorem sameCalls_requestedOrder {params : List SortParam} {served : List (SortStep C)}
    (h : List.Forall₂ rules.Serves params served) (c : Selection C) :
    Traced.SameCalls (rules.requestedOrder settings params c)
      ((rules.orderSteps settings served).foldlM SortStep.run c) := by
  unfold requestedOrder orderSteps
  rw [List.foldlM_append]
  cases h with
  | nil =>
    cases husual : rules.defaultSort with
    | none => simpa using .refl _
    | some usual =>
      simp only [ne_eq, not_true_eq_false, reduceCtorEq, not_false_eq_true, or_true, and_true,
        if_true, ← dropOrder_eq]
      refine (Traced.SameCalls.refl _).bind fun c => ?_
      exact (Traced.SameCalls.log_bind _ _).trans (sortByDefault_eq usual c ▸ .refl _)
  | @cons p step params served hp hserved =>
    simp only [ne_eq, reduceCtorEq, not_false_eq_true, true_or, and_true, if_false, ← dropOrder_eq]
    refine (Traced.SameCalls.refl _).bind fun c => .foldlM ?_ c
    exact (List.Forall₂.cons hp hserved).imp fun _ _ h => sameCalls_sortBy h

/-- **The steps of a permitted request**: the old order is dropped if it is to be replaced, then
each token is served by one step or, if there is none, the default sort is applied, and last come
the clauses that break ties. -/
theorem sameCalls_sort {served : List (SortStep C)}
    (h : List.Forall₂ rules.Serves (sortParams (.ofText given)) served) :
    Traced.SameCalls (rules.sort settings (.ofText given) c)
      ((rules.sortSteps settings served).foldlM SortStep.run c) := by
  have hpermitted : rules.ensurePermitted (sortParams (.ofText given)) = .ok () :=
    ensurePermitted_of_permitted fun p hp => isSortPermitted_iff.mpr (permits_of_serves h p hp)
  rw [sort_ofText, hpermitted, sortSteps, List.foldlM_append]
  refine (sameCalls_requestedOrder h c).bind fun ordered => ?_
  exact (Traced.SameCalls.log_bind _ _).trans
    (sortByDefault_eq (.clauses rules.uniqueSort) ordered ▸ .refl _)

/-- **What sorting does to a collection.** If some token names an attribute without a rule, then
exactly these attributes are reported, each once, in the order in which they are first requested,
and nothing is asked of the collection. Else every token is served by one step, and the stage is
these steps in the order of the tokens, behind the one that drops an order to be replaced and ahead
of the one that breaks ties; without tokens the default sort is the step, if there is one. -/
theorem sort_steps (rules : QueryRules C) (settings : Settings) (given : Option String)
    (c : Selection C) :
    ((∃ p ∈ sortParams (.ofText given), ¬ rules.Permits p.name) →
      ∃ offending : List String,
        rules.sort settings (.ofText given) c =
          .fail (.unpermittedSort (offending.map .str)) ∧
        (∀ name, name ∈ offending ↔
          (∃ p ∈ sortParams (.ofText given), p.name = name) ∧ ¬ rules.Permits name) ∧
        offending.Pairwise fun a b =>
          ((sortParams (.ofText given)).map (·.name)).idxOf a <
            ((sortParams (.ofText given)).map (·.name)).idxOf b) ∧
    ((∀ p ∈ sortParams (.ofText given), rules.Permits p.name) →
      (∃ served, List.Forall₂ rules.Serves (sortParams (.ofText given)) served) ∧
      ∀ served, List.Forall₂ rules.Serves (sortParams (.ofText given)) served →
        Traced.SameCalls (rules.sort settings (.ofText given) c)
          ((rules.sortSteps settings served).foldlM SortStep.run c)) := by
  refine ⟨fun h => ⟨(rules.unpermitted (sortParams (.ofText given))).eraseDups,
    sort_of_unpermitted h, fun name => ?_, pairwise_idxOf_eraseDups _ _⟩,
    fun h => ⟨exists_served h, ?_⟩⟩
  · rw [List.mem_eraseDups, mem_unpermitted]
  · exact fun served hserved => sameCalls_sort hserved

/-- A rule for one name, and two for names that start in a certain way. -/
def overlappingRules : QueryRules Recorder where
  sorts := OrderedMap.ofList [("age", .byName "age")]
  dynamicSorts := [
    { stem := "ag"
      strategy := .function "first" fun _ c => Collection.perform (.limit (.int 1)) c },
    { stem := "a"
      strategy := .cls {
        name := "Second", shape := .dynamicSort, checks := [], constants := []
        body? := some fun given c =>
          Collection.perform (.orderBy [.tuple [given.name, given.direction]]) c } }]
  defaultSort := some (.clauses [⟨"rank", .asc⟩])

/-- The settings by which a sort replaces the order before. -/
def replacing : Settings := { Settings.default with replaceExistingOrder := true }

/-- An attribute with a rule of its own, one that starts with both stems and one that is the second
stem are sorted by; of two attributes without a rule, one of them empty, both are reported. -/
theorem sort_overlappingRules :
    ((∀ p ∈ sortParams (.ofText (some "-age,agility , a")), overlappingRules.Permits p.name) ∧
      ∃ served, List.Forall₂ overlappingRules.Serves
          (sortParams (.ofText (some "-age,agility , a"))) served ∧
        (overlappingRules.sort replacing (.ofText (some "-age,agility , a"))
          (.live ⟨0, []⟩)).accesses = ((overlappingRules.sortSteps replacing served).foldlM
            SortStep.run (.live ⟨0, []⟩)).accesses) ∧
    (overlappingRules.sort replacing (.ofText (some "-age,agility , a")) (.live ⟨0, []⟩)).accesses =
      [.apply ⟨.reorder, [], []⟩,
        .apply ⟨.orderBy, [.given (.list [.str "age", .direction .desc])], []⟩,
        .apply ⟨.limit, [.given (.int 1)], []⟩,
        .apply ⟨.orderBy, [.given (.list [.str "", .direction .asc])], []⟩,
        .apply ⟨.orderBy, [.given (.list [.str "id", .direction .asc])], []⟩] ∧
    ((∃ p ∈ sortParams (.ofText (some "b,-age,,-,b")), ¬ overlappingRules.Permits p.name) ∧
      ∃ offending : List String,
        overlappingRules.sort replacing (.ofText (some "b,-age,,-,b")) (.live ⟨0, []⟩) =
          .fail (.unpermittedSort (offending.map .str)) ∧ offending = ["b", ""]) := by
  have hserved : sortParams (.ofText (some "-age,agility , a")) =
      [⟨"age", true⟩, ⟨"agility", false⟩, ⟨"a", false⟩] := by rfl
  have hrefused : sortParams (.ofText (some "b,-age,,-,b")) =
      [⟨"b", false⟩, ⟨"age", true⟩, ⟨"", true⟩, ⟨"b", false⟩] := by rfl
  have hpermits : ∀ p ∈ sortParams (.ofText (some "-age,agility , a")),
      overlappingRules.Permits p.name := by
    rw [hserved]
    intro p hp
    simp only [List.mem_cons, List.not_mem_nil, or_false] at hp
    rcases hp with rfl | rfl | rfl
    · exact isSortPermitted_iff.mp (by rfl)
    · exact isSortPermitted_iff.mp (by rfl)
    · exact isSortPermitted_iff.mp (by rfl)
  have hnot : ∃ p ∈ sortParams (.ofText (some "b,-age,,-,b")),
      ¬ overlappingRules.Permits p.name := by
    rw [hrefused]
    refine ⟨⟨"b", false⟩, List.mem_cons_self, fun h => ?_⟩
    have hno : overlappingRules.isSortPermitted "b" = false := by rfl
    rw [isSortPermitted_iff.mpr h] at hno
    cases hno
  obtain ⟨hserves, hsame⟩ := (sort_steps overlappingRules replacing (some "-age,agility , a")
    (.live ⟨0, []⟩)).2 hpermits
  obtain ⟨served, hserved⟩ := hserves
  obtain ⟨offending, hsort, -, -⟩ := (sort_steps overlappingRules replacing (some "b,-age,,-,b")
    (.live ⟨0, []⟩)).1 hnot
  refine ⟨⟨hpermits, served, hserved, (hsame served hserved).accesses⟩, rfl,
    hnot, offending, hsort, ?_⟩
  have hfound : overlappingRules.sort replacing (.ofText (some "b,-age,,-,b")) (.live ⟨0, []⟩) =
      .fail (.unpermittedSort (["b", ""].map .str)) := by rfl
  have hsame := congrArg Traced.result (hsort.symm.trans hfound)
  have hnames := QueryError.unpermittedSort.inj (Except.error.inj hsame)
  exact List.map_injective_iff.mpr (fun _ _ h => Value.str.inj h) hnames

end QueryRules

end ResourceQuery
