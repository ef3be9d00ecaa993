import ResourceQuery.Proofs.Query.Run
import ResourceQuery.Proofs.Rules.Usual

/-!
# The stages of a usual query in memory

On a collection in memory the stages before paging only describe the query further. With usual
rules each of them adds to one part of it: the sort stage to the ordering, the include stage to
what is loaded along, the filter stage to the predicates.

Headlines:
* **`QueryRules.orderOf`**: the ordering that the sort stage leaves, from the one it finds.
* **`QueryRules.exists_of_sort`**, **`QueryRules.result_sort`**: the sort stage sets this ordering,
  and it does where all attributes of a text are permitted.
* **`QueryRules.equations`**: the predicates that the filter stage adds.
* **`QueryRules.exists_of_filter`**: the filter stage adds them.
* **`exists_of_includeRequested`**, **`exists_result_includeRequested`**: the include stage changes
  nothing that a row depends on, and does not fail on a text.
-/

namespace ResourceQuery

variable {rules : QueryRules Memory} {settings : Settings} {m : Memory} {s : Selection Memory}

/-! ## Sorting -/

/-- The parameters of a sort text; what is no text has none. -/
def sortParams (raw : Value) : List SortParam :=
  ((raw.spelling?.map Request.tokens).getD []).map SortParam.parse

theorem sortParams_of_readAll {raw : Value} {params : List SortParam}
    (h : SortParam.readAll raw = .ok params) : params = sortParams raw := by
  unfold SortParam.readAll Request.tokenList at h
  by_cases htruthy : raw.isTruthy = true
  · rw [if_neg (by simp [htruthy])] at h
    unfold Value.textFor at h
    unfold sortParams
    cases htext : raw.spelling? with
    | none =>
      rw [htext] at h
      cases h
    | some t =>
      rw [htext] at h
      cases h
      rfl
  · rw [if_pos (by simpa using htruthy)] at h
    cases h
    unfold sortParams
    cases htext : raw.spelling? with
    | none => rfl
    | some t =>
      cases raw with
      | str s =>
        have hempty : s = "" := by simpa [Value.isTruthy] using htruthy
        subst hempty
        cases htext
        rfl
      | direction d => exact absurd rfl htruthy
      | loose t => exact absurd rfl htruthy
      | _ => cases htext

/-- A text has tokens, and without one there are none. -/
theorem exists_tokenList_ofText (given : Option String) :
    ∃ tokens, Request.tokenList (.ofText given) = .ok tokens := by
  cases given with
  | none => exact ⟨[], rfl⟩
  | some text =>
    unfold Request.tokenList
    split
    · exact ⟨[], rfl⟩
    · exact ⟨_, rfl⟩

theorem readAll_ofText (given : Option String) :
    SortParam.readAll (.ofText given) = .ok (sortParams (.ofText given)) := by
  cases given with
  | none => rfl
  | some text => exact SortParam.readAll_str text

/-- Is a value a text, or absent? -/
def Value.isTextOrAbsent (v : Value) : Bool := v.isNull || v.spelling?.isSome

/-- A parameter that is a text is read as it shows. -/
theorem tokenList_of_isTextOrAbsent {raw : Value} (h : raw.isTextOrAbsent = true) :
    Request.tokenList raw = Request.tokenList (.ofText raw.spelling?) := by
  cases raw with
  | null | str => rfl
  | direction d => cases d <;> rfl
  | loose t =>
    have hne : t.shown ≠ "" := by
      intro hempty
      have hmem := t.mem_shown
      rw [hempty] at hmem
      cases hmem
    have htruthy : (Value.str t.shown).isTruthy = true := by simpa [Value.isTruthy] using hne
    show Request.tokenList (.loose t) = Request.tokenList (.str t.shown)
    unfold Request.tokenList
    rw [htruthy]
    rfl
  | _ => cases h

theorem sortParams_ofText (raw : Value) : sortParams (.ofText raw.spelling?) = sortParams raw := by
  unfold sortParams
  cases raw.spelling? <;> rfl

/-- The clause of a sort parameter. -/
def SortParam.clause (p : SortParam) : OrderClause := ⟨p.name, p.direction⟩

namespace QueryRules

/-- The clauses of the default sort. -/
def defaultClauses (rules : QueryRules Memory) : List OrderClause :=
  match rules.defaultSort with
  | some (.clauses clauses) => clauses
  | _ => []

/-- The clauses that a request asks for, or else those of the default sort. -/
def requestedClauses (rules : QueryRules Memory) (params : List SortParam) : List OrderClause :=
  if params.isEmpty then rules.defaultClauses else params.map SortParam.clause

/-- Is there something to replace the ordering of the collection with? -/
def hasOrder (rules : QueryRules Memory) (params : List SortParam) : Bool :=
  !params.isEmpty || rules.defaultSort.isSome

/-- The ordering that the sort stage leaves: the one before, unless it is replaced, then what is
requested or usual, then what breaks ties. -/
def orderOf (rules : QueryRules Memory) (settings : Settings) (params : List SortParam)
    (before : List (Value × Direction)) : List (Value × Direction) :=
  (if settings.replaceExistingOrder && rules.hasOrder params then [] else before)
    ++ Memory.clausesOf (rules.requestedClauses params) ++ Memory.clausesOf rules.uniqueSort

theorem result_dropOrder (settings : Settings) (m : Memory) :
    (dropOrder settings (Selection.live m)).result =
      .ok (.live { m with ordering := if settings.replaceExistingOrder then [] else m.ordering }) := by
  unfold dropOrder
  by_cases h : settings.replaceExistingOrder = true
  · rw [if_pos h, if_pos h]
    exact Selection.result_perform_live rfl
  · rw [if_neg h, if_neg h]
    rfl

/-- One requested attribute orders by it. -/
theorem result_sortBy (h : rules.SortsUsually) {param : SortParam}
    (hpermitted : rules.isSortPermitted param.name = true) (m : Memory) :
    (rules.sortBy (Selection.live m) param).result =
      .ok (.live { m with ordering := m.ordering ++ Memory.clausesOf [param.clause] }) := by
  unfold sortBy
  rw [Traced.result_bind_of_ok (Traced.result_log _)]
  unfold isSortPermitted at hpermitted
  unfold findSort at hpermitted ⊢
  cases hstatic : rules.sorts.get? param.name with
  | none =>
    rw [hstatic, h.dynamicSorts] at hpermitted
    cases hpermitted
  | some strategy =>
    rw [h.sorts param.name strategy hstatic]
    exact Selection.result_perform_live (Memory.perform_orderByClauses m [param.clause])

/-- All requested attributes order by them one after the other. -/
theorem result_foldlM_sortBy (h : rules.SortsUsually) :
    ∀ {params : List SortParam}, (∀ p ∈ params, rules.isSortPermitted p.name = true) →
      ∀ m : Memory, (params.foldlM rules.sortBy (Selection.live m)).result =
        .ok (.live { m with
          ordering := m.ordering ++ Memory.clausesOf (params.map SortParam.clause) })
  | [], _, m => by
    rw [List.foldlM_nil, List.map_nil]
    simp [Memory.clausesOf]
  | param :: rest, hpermitted, m => by
    rw [List.forall_mem_cons] at hpermitted
    rw [List.foldlM_cons, Traced.result_bind_of_ok (result_sortBy h hpermitted.1 m),
      result_foldlM_sortBy h hpermitted.2]
    simp [Memory.clausesOf]

theorem unpermitted_eq_nil_iff {C : Type} {rules : QueryRules C} {params : List SortParam} :
    rules.unpermitted params = [] ↔ ∀ p ∈ params, rules.isSortPermitted p.name = true := by
  simp [unpermitted]

theorem permitted_of_ensurePermitted {params : List SortParam}
    (h : rules.ensurePermitted params = .ok ()) :
    ∀ p ∈ params, rules.isSortPermitted p.name = true := by
  unfold ensurePermitted at h
  split at h
  · next hnone => exact unpermitted_eq_nil_iff.mp hnone
  · cases h

theorem ensurePermitted_of_permitted {C : Type} {rules : QueryRules C} {params : List SortParam}
    (h : ∀ p ∈ params, rules.isSortPermitted p.name = true) :
    rules.ensurePermitted params = .ok () := by
  rw [ensurePermitted, unpermitted_eq_nil_iff.mpr h]

theorem ensurePermitted_of_refused {C : Type} {rules : QueryRules C} {params : List SortParam}
    (h : rules.unpermitted params ≠ []) :
    rules.ensurePermitted params = .error (.unpermitted (rules.unpermitted params)) := by
  unfold ensurePermitted
  split
  · next hnone => exact absurd hnone h
  · rfl

theorem result_requestedOrder (h : rules.SortsUsually) {params : List SortParam}
    (hpermitted : ∀ p ∈ params, rules.isSortPermitted p.name = true) (m : Memory) :
    (rules.requestedOrder settings params (Selection.live m)).result =
      .ok (.live { m with ordering :=
        (if settings.replaceExistingOrder && rules.hasOrder params then [] else m.ordering)
          ++ Memory.clausesOf (rules.requestedClauses params) }) := by
  have hdrop := result_dropOrder settings m
  unfold requestedOrder hasOrder requestedClauses
  cases params with
  | nil =>
    cases husual : rules.defaultSort with
    | none => simp [defaultClauses, husual, Memory.clausesOf]
    | some usual =>
      obtain ⟨clauses, rfl⟩ := h.defaultSort usual husual
      simp only
      rw [Traced.result_bind_of_ok hdrop, Traced.result_bind_of_ok (Traced.result_log _),
        sortByDefault, Selection.result_perform_live (Memory.perform_orderByClauses _ _)]
      simp [defaultClauses, husual]
  | cons param rest =>
    simp only
    rw [Traced.result_bind_of_ok hdrop, result_foldlM_sortBy h hpermitted]
    simp

/-- The stage on the tokens of a text. -/
theorem sort_ofText {C : Type} [Collection C] {rules : QueryRules C} {given : Option String}
    {c : Selection C} : rules.sort settings (.ofText given) c =
    (Traced.ofExcept (rules.ensurePermitted (sortParams (.ofText given))) >>= fun _ => do
      let ordered ← rules.requestedOrder settings (sortParams (.ofText given)) c
      Traced.log (.appendingUniqueSort rules.uniqueSort)
      Collection.perform (.orderByClauses rules.uniqueSort) ordered) := by
  unfold sort
  rw [readAll_ofText]
  exact pure_bind (m := Traced) _ _

/-- The stage on a parameter that is a text. -/
theorem sort_of_isTextOrAbsent {C : Type} [Collection C] {rules : QueryRules C} {raw : Value}
    (h : raw.isTextOrAbsent = true) (c : Selection C) :
    rules.sort settings raw c = rules.sort settings (.ofText raw.spelling?) c := by
  unfold sort SortParam.readAll
  rw [tokenList_of_isTextOrAbsent h]

/-- **The sort stage** sets the ordering. -/
theorem exists_of_sort (h : rules.SortsUsually) {raw : Value}
    (hsort : (rules.sort settings raw (Selection.live m)).result = .ok s) :
    s = .live { m with ordering := rules.orderOf settings (sortParams raw) m.ordering } := by
  unfold sort at hsort
  obtain ⟨params, hparams, hsort⟩ := Traced.result_bind_eq_ok_iff.mp hsort
  obtain ⟨_, hpermitted, hsort⟩ := Traced.result_bind_eq_ok_iff.mp hsort
  rw [Traced.result_bind_of_ok
      (result_requestedOrder h (permitted_of_ensurePermitted hpermitted) m),
    Traced.result_bind_of_ok (Traced.result_log _),
    Selection.result_perform_live (Memory.perform_orderByClauses _ _)] at hsort
  cases hsort
  rw [sortParams_of_readAll hparams]
  rfl

/-- The sort stage succeeds where all attributes of a text are permitted. -/
theorem result_sort (h : rules.SortsUsually) {given : Option String}
    (hpermitted : ∀ p ∈ sortParams (.ofText given), rules.isSortPermitted p.name = true)
    (m : Memory) :
    (rules.sort settings (.ofText given) (Selection.live m)).result =
      .ok (.live { m with
        ordering := rules.orderOf settings (sortParams (.ofText given)) m.ordering }) := by
  rw [sort_ofText, Traced.result_bind_of_ok (ensurePermitted_of_permitted hpermitted),
    Traced.result_bind_of_ok (result_requestedOrder h hpermitted m),
    Traced.result_bind_of_ok (Traced.result_log _),
    Selection.result_perform_live (Memory.perform_orderByClauses _ _)]
  rfl

end QueryRules

/-! ## Including -/

/-- **The include stage** changes nothing that a row depends on. -/
theorem exists_of_includeRequested {raw : Value}
    (h : (includeRequested raw (Selection.live m)).result = .ok s) :
    ∃ included, s = .live { m with includes := included } := by
  unfold includeRequested at h
  obtain ⟨specs, _, h⟩ := Traced.result_bind_eq_ok_iff.mp h
  by_cases hempty : specs.isEmpty = true
  · rw [if_pos hempty] at h
    cases h
    exact ⟨m.includes, rfl⟩
  · rw [if_neg hempty, Traced.result_bind_of_ok (Traced.result_log _)] at h
    obtain ⟨m', hm', rfl⟩ := Selection.exists_of_result_perform_live h
    cases hm'
    exact ⟨_, rfl⟩

/-- The stage on a parameter that is a text. -/
theorem includeRequested_of_isTextOrAbsent {C : Type} [Collection C] {raw : Value}
    (h : raw.isTextOrAbsent = true) (c : C) :
    includeRequested raw c = includeRequested (.ofText raw.spelling?) c := by
  unfold includeRequested IncludeTree.specs IncludeTree.readAll
  rw [tokenList_of_isTextOrAbsent h]

/-- The stage does not fail on a text. -/
theorem exists_result_includeRequested (given : Option String) (m : Memory) :
    ∃ included, (includeRequested (.ofText given) (Selection.live m)).result =
      .ok (.live { m with includes := included }) := by
  obtain ⟨tokens, htokens⟩ := exists_tokenList_ofText given
  have hspecs : ∃ specs, IncludeTree.specs (.ofText given) = .ok specs := by
    unfold IncludeTree.specs IncludeTree.readAll
    rw [htokens]
    exact ⟨_, rfl⟩
  obtain ⟨specs, hspecs⟩ := hspecs
  unfold includeRequested
  rw [Traced.result_bind_of_ok (a := specs) hspecs]
  split
  · exact ⟨m.includes, rfl⟩
  · exact ⟨_, rfl⟩

/-! ## Filtering -/

/-- The entries of a map; what is no map has none. -/
def entriesOf (raw : Value) : List (Value × Value) := raw.entries?.getD []

/-- Is a usual rule enabled? Its query has to be present, or it asks for the absent value too and
the request holds its parameter. -/
def FilterRule.isAsked (r : FilterRule Memory) (entries : List (Value × Value)) : Bool :=
  !(r.query entries).isNull || (r.allowNil && (Value.lookup? r.parameter entries).isSome)

/-- The predicates that the filter stage adds: for each enabled rule its attribute and the query. -/
def QueryRules.equations (rules : QueryRules Memory) (entries : List (Value × Value)) :
    List Predicate :=
  (rules.filters.filter (·.isAsked entries)).map fun r => .equation r.name (r.query entries)

theorem eq_entriesOf {raw : Value} {entries : List (Value × Value)}
    (h : filterEntries raw = .ok entries) : entries = entriesOf raw := by
  unfold filterEntries at h
  by_cases htruthy : raw.isTruthy = true
  · rw [if_pos htruthy, Value.entriesFor_eq_ok_iff] at h
    subst h
    rfl
  · rw [if_neg htruthy] at h
    cases h
    cases raw with
    | map entries =>
      have hempty : entries = [] := by simpa [Value.isTruthy] using htruthy
      rw [hempty]
      rfl
    | _ => rfl

/-- One usual rule adds its predicate if it is enabled. -/
theorem FilterRule.exists_of_run {r : FilterRule Memory} (hr : r.IsUsual)
    {entries : List (Value × Value)} (h : (r.run entries (Selection.live m)).result = .ok s) :
    s = .live { m with predicates :=
      m.predicates ++ QueryRules.equations { filters := [r] } entries } := by
  have hobject : r.object? (r.query entries) (Selection.live m) = .ok none := by
    rw [object?, hr.strategy, Strategy.equality]
  have henabled : (r.isEnabled entries (r.query entries) none : Traced Bool) =
      pure (r.isAsked entries) := by
    rw [isEnabled, hr.guards]
    rfl
  unfold FilterRule.run at h
  simp only at h
  rw [Traced.result_bind_of_ok (a := none) hobject, henabled, pure_bind] at h
  unfold QueryRules.equations
  by_cases hasked : r.isAsked entries = true
  · rw [if_pos hasked, Traced.result_bind_of_ok (Traced.result_log _), hr.strategy] at h
    obtain ⟨m', hm', rfl⟩ := Selection.exists_of_result_perform_live h
    obtain ⟨-, rfl⟩ := Memory.restrict_eq_ok_iff.mp hm'
    simp [hasked, Memory.predicatesOf]
  · rw [if_neg hasked, Traced.result_bind_of_ok (Traced.result_log _)] at h
    cases h
    simp [hasked]

/-- The rules of a table add their predicates one after the other. -/
theorem exists_of_filters {raw : Value} :
    ∀ {filters : List (FilterRule Memory)}, (∀ r ∈ filters, r.IsUsual) → ∀ {m : Memory},
      (QueryRules.filter { filters } raw (Selection.live m)).result = .ok s →
      s = .live { m with predicates :=
        m.predicates ++ QueryRules.equations { filters } (entriesOf raw) }
  | [], _, m, h => by
    cases h
    simp [QueryRules.equations]
  | r :: rest, hr, m, h => by
    rw [List.forall_mem_cons] at hr
    rw [QueryRules.filter, List.foldlM_cons] at h
    obtain ⟨next, hnext, h⟩ := Traced.result_bind_eq_ok_iff.mp h
    obtain ⟨entries, hentries, hnext⟩ := Traced.result_bind_eq_ok_iff.mp hnext
    have hfirst := FilterRule.exists_of_run hr.1 hnext
    subst hfirst
    rw [exists_of_filters hr.2 h, eq_entriesOf hentries]
    unfold QueryRules.equations
    by_cases hasked : r.isAsked (entriesOf raw) = true
    · simp [hasked]
    · simp [hasked]

/-- **The filter stage** adds the predicates of the enabled rules. -/
theorem QueryRules.exists_of_filter (h : rules.IsUsual) {raw : Value}
    (hfilter : (rules.filter raw (Selection.live m)).result = .ok s) :
    s = .live { m with predicates := m.predicates ++ rules.equations (entriesOf raw) } :=
  exists_of_filters h.filters hfilter

end ResourceQuery
