import ResourceQuery.Proofs.Query.Guards
import ResourceQuery.Proofs.Query.Meaning
import ResourceQuery.Proofs.Query.WritableLog

/-!
# Which requests fail

A request over a collection in memory is to fail for one of three reasons: it sorts by attributes
that no rule permits, fields of its page are wrong, or its page lies after the last one. The first
of these that holds is reported, in whatever order the stages ahead of paging run. There is one
more: where a page has links, a text with surrogates on its own, wherever it stands in the request,
makes it fail with an error that is not meant for requests. And whoever writes the log down fails at
the numbers of a page that have too many digits.

Headlines:
* **`QueryRules.IsPlain`**, **`Query.IsRequest`**, **`Query.HasRecords`**: the tables, requests and
  collections that this is about.
* **`QueryRules.result_filter`**: the filter stage always adds its conditions.
* **`Query.exists_runStage`**, **`Query.exists_runStages`**: a stage ahead of paging fails only for
  its sorts, and so do all of them.
* **`Query.page_of_ahead`**: why paging fails after the stages ahead of it.
* **`Query.refusal?`**: the first reason that holds; **`Query.errorOf?_results`**: why the results
  fail, as they are and with the log written down.
* **`Query.results_fail_iff`**: which requests fail, and how.
-/

namespace ResourceQuery

open Pagination

/-! ## Filters with conditions -/

/-- A filter rule that names no strategy of its own. Its conditions have an answer for every query,
and its name can be handed to the collection. -/
structure FilterRule.IsPlain (r : FilterRule Memory) : Prop where
  strategy : r.strategy = .equality r.name
  name : r.name ≠ reservedName
  guards : ∀ g ∈ r.guards, ∀ query, ∃ answer,
    (g.passes query (none : Option (StrategyObject Memory))).result = .ok answer

namespace FilterRule

variable {r : FilterRule Memory} {entries : List (Value × Value)} {m : Memory}

/-- Does a rule apply to the filter parameters? Its conditions decide if it has any. -/
def applies (r : FilterRule Memory) (entries : List (Value × Value)) : Bool :=
  if r.guards.isEmpty then r.isAsked entries
  else r.guards.all fun g =>
    isYes (g.passes (r.query entries) (none : Option (StrategyObject Memory))).result

/-- The condition on records that a rule states. -/
def condition (r : FilterRule Memory) (entries : List (Value × Value)) : Predicate :=
  .equation r.name (r.query entries)

theorem result_isEnabled (h : r.IsPlain) (entries : List (Value × Value)) :
    (r.isEnabled entries (r.query entries) none).result = .ok (r.applies entries) := by
  unfold isEnabled applies
  by_cases hguards : r.guards.isEmpty = true
  · rw [if_pos hguards, if_pos hguards]
    rfl
  · rw [if_neg hguards, if_neg hguards]
    exact result_allPass fun g hg => h.guards g hg _

/-- One rule adds its condition if it applies. -/
theorem result_run (h : r.IsPlain) (entries : List (Value × Value)) (m : Memory) :
    (r.run entries (Selection.live m)).result = .ok (.live { m with
      predicates := m.predicates ++ if r.applies entries then [r.condition entries] else [] }) := by
  have hobject : r.object? (r.query entries) (Selection.live m) = .ok none := by
    rw [object?, h.strategy, Strategy.equality]
  have hname : usesReservedName [(r.name, r.query entries)] = false := by
    simp [usesReservedName, h.name]
  rw [run_of_object? hobject, Traced.result_bind_of_ok (result_isEnabled h entries)]
  by_cases happlies : r.applies entries = true
  · rw [if_pos happlies, if_pos happlies, Traced.result_bind_of_ok (Traced.result_log _),
      h.strategy]
    exact Selection.result_perform_live (Memory.restrict_eq_ok_iff.mpr ⟨hname, rfl⟩)
  · rw [if_neg happlies, if_neg happlies, Traced.result_bind_of_ok (Traced.result_log _),
      List.append_nil]
    rfl

/-- What is asked of a rule is no set if the request holds none. -/
theorem query_ne_set (h : ∀ e ∈ entries, ∀ items, e.2 ≠ .set items) (items : List Value) :
    r.query entries ≠ .set items := by
  unfold FilterRule.query Value.presence
  split
  · exact nofun
  · cases hfound : Value.lookup? r.parameter entries with
    | none => exact nofun
    | some v =>
      obtain ⟨key, hmem⟩ := Value.exists_mem_of_lookup? hfound
      exact h _ hmem items

end FilterRule

/-! ## Plain tables -/

/-- A table of rules that name no strategy of their own, with one of the four ways to page. -/
structure QueryRules.IsPlain (rules : QueryRules Memory) : Prop extends rules.SortsUsually where
  filters : ∀ r ∈ rules.filters, r.IsPlain
  paginator : rules.paginator = .page ∨ rules.paginator = .flat ∨ rules.paginator = .countless ∨
    rules.paginator = .keyset

namespace QueryRules

variable {rules : QueryRules Memory} {raw : Value} {entries : List (Value × Value)}

/-- The conditions of the rules that apply to the filter parameters. -/
def conditions (rules : QueryRules Memory) (entries : List (Value × Value)) : List Predicate :=
  (rules.filters.filter (·.applies entries)).map (·.condition entries)

theorem result_filters (hentries : filterEntries raw = .ok entries) :
    ∀ {filters : List (FilterRule Memory)}, (∀ r ∈ filters, r.IsPlain) → ∀ m : Memory,
      (QueryRules.filter { filters } raw (Selection.live m)).result =
        .ok (.live { m with predicates := m.predicates ++ conditions { filters } entries })
  | [], _, m => by simp [QueryRules.filter, conditions]
  | r :: rest, h, m => by
    rw [List.forall_mem_cons] at h
    have hfirst : (Traced.ofExcept (filterEntries raw) >>= fun entries =>
        r.run entries (Selection.live m)).result = _ :=
      (Traced.result_bind_of_ok hentries _).trans (FilterRule.result_run h.1 entries m)
    rw [QueryRules.filter, List.foldlM_cons, Traced.result_bind_of_ok hfirst]
    refine (result_filters hentries h.2 _).trans ?_
    unfold conditions
    by_cases happlies : r.applies entries = true
    · simp [happlies]
    · simp [happlies]

/-- **The filter stage** adds the conditions of the rules that apply. -/
theorem result_filter (h : rules.IsPlain) (hentries : filterEntries raw = .ok entries)
    (m : Memory) : (rules.filter raw (Selection.live m)).result =
      .ok (.live { m with predicates := m.predicates ++ rules.conditions entries }) :=
  result_filters hentries h.filters m

end QueryRules

/-! ## Requests -/

namespace Query

variable {q : Query Memory} {m : Memory}

/-- A request whose parameters are a map, if any: a text may say how to sort and a text what to
include, and a map holds the filters, in which, as in JSON, no value is a set. The `page` parameter
may be anything. -/
structure IsRequest (q : Query Memory) : Prop where
  params : q.params = .null ∨ ∃ entries, q.params = .map entries
  sort : (q.given "sort").isTextOrAbsent = true
  includes : (q.given "include").isTextOrAbsent = true
  filter : q.given "filter" = .null ∨
    ∃ entries, q.given "filter" = .map entries ∧ ∀ e ∈ entries, ∀ items, e.2 ≠ .set items

/-- The conditions of the filters that apply to the request. -/
def conditions (q : Query Memory) : List Predicate :=
  q.rules.conditions (entriesOf (q.given "filter"))

/-- The records that satisfy the predicates of the collection and the conditions of the request. -/
def remaining (q : Query Memory) : List Value :=
  q.collection.items.filter fun item =>
    q.collection.predicates.all (Predicate.isMet item) && q.conditions.all (Predicate.isMet item)

/-- The requested sort attributes that no rule permits. -/
def refusedSorts (q : Query Memory) : List String :=
  q.rules.unpermitted (sortParams (q.given "sort"))

/-- A collection of records that can be counted in doubles. The predicates that are there do not
fail on them, and if the sorts of the request are permitted, no comparison by them fails. -/
structure HasRecords (q : Query Memory) : Prop where
  count : q.collection.items.length ≤ 2 ^ 53
  matching : ∃ matching, q.collection.matching = .ok matching
  compares : q.refusedSorts = [] → ∀ clause ∈ q.order, Compares clause q.remaining

theorem filterEntries_of_map {v : Value} (h : v = .null ∨ ∃ entries, v = .map entries) :
    filterEntries v = .ok (entriesOf v) := by
  rcases h with rfl | ⟨entries, rfl⟩
  · rfl
  · cases entries <;> rfl

theorem IsRequest.param (h : q.IsRequest) (name : String) : q.param name = .ok (q.given name) := by
  rw [param_eq, filterEntries_of_map h.params]
  rfl

theorem exists_allHold_conditions (h : q.IsRequest) (item : Value) :
    ∃ answer, Predicate.allHold item q.conditions = .ok answer := by
  refine Predicate.exists_allHold fun p hp => ?_
  obtain ⟨r, -, rfl⟩ := List.mem_map.mp hp
  refine Predicate.exists_holds_equation (FilterRule.query_ne_set ?_) item
  rcases h.filter with hnull | ⟨entries, hmap, hsets⟩
  · rw [hnull]
    exact fun e he => by cases he
  · rw [hmap]
    exact hsets

/-! ## The stages ahead of paging -/

/-- The collection after some of the stages ahead of paging: what a stage adds is there exactly if
it has run. It is `Reached` for filters that may have conditions. -/
structure Ahead (q : Query Memory) (done : List Stage) (m : Memory) : Prop where
  items : m.items = q.collection.items
  predicates : m.predicates =
    q.collection.predicates ++ if .filter ∈ done then q.conditions else []
  ordering : m.ordering = if .sort ∈ done then q.order else q.collection.ordering

theorem ahead_nil (q : Query Memory) : q.Ahead [] q.collection where
  items := rfl
  predicates := by simp
  ordering := by simp

/-- **One stage** adds its part to the collection. Only the sort stage can fail, and only for its
attributes. -/
theorem exists_runStage (hrules : q.rules.IsPlain) (hrequest : q.IsRequest) {done : List Stage}
    (hm : q.Ahead done m) {stage : Stage} (hnew : stage ∉ done) (hstage : stage ≠ .paginate)
    (hsort : stage = .sort → q.refusedSorts = []) (before : Option Details) :
    ∃ m', (q.runStage (.live m) stage before).1.result = .ok (.live m') ∧
      q.Ahead (stage :: done) m' := by
  rw [result_runStage]
  cases stage with
  | sort =>
    have hnone := hsort rfl
    rw [refusedSorts, QueryRules.unpermitted_eq_nil_iff, ← sortParams_ofText] at hnone
    have hrun : (q.rules.sort q.settings (q.given "sort") (.live m)).result = _ :=
      (congrArg Traced.result (QueryRules.sort_of_isTextOrAbsent hrequest.sort _)).trans
        (QueryRules.result_sort hrules.toSortsUsually hnone m)
    rw [sortParams_ofText] at hrun
    refine ⟨_, (Traced.result_bind_of_ok (hrequest.param "sort") _).trans hrun, ?_⟩
    exact ⟨hm.items, by simpa using hm.predicates, by simp [hm.ordering, hnew, order]⟩
  | «include» =>
    obtain ⟨included, hrun⟩ :=
      exists_result_includeRequested (q.given "include").spelling? m
    rw [← includeRequested_of_isTextOrAbsent hrequest.includes] at hrun
    refine ⟨_, (Traced.result_bind_of_ok (hrequest.param "include") _).trans hrun, ?_⟩
    exact ⟨hm.items, by simpa using hm.predicates, by simpa using hm.ordering⟩
  | filter =>
    have hentries : filterEntries (q.given "filter") = .ok (entriesOf (q.given "filter")) := by
      refine filterEntries_of_map (hrequest.filter.imp_right ?_)
      rintro ⟨entries, hmap, -⟩
      exact ⟨entries, hmap⟩
    have hrun := QueryRules.result_filter hrules hentries m
    refine ⟨_, (Traced.result_bind_of_ok (hrequest.param "filter") _).trans hrun, ?_⟩
    exact ⟨hm.items, by simp [hm.predicates, hnew, conditions], by simpa using hm.ordering⟩
  | paginate => exact absurd rfl hstage

/-- The sort stage reports attributes that no rule permits. -/
theorem result_runStage_of_refused (hrequest : q.IsRequest) (hrefused : q.refusedSorts ≠ [])
    (c : Selection Memory) (before : Option Details) :
    (q.runStage c .sort before).1.result = .error (.unpermitted q.refusedSorts) := by
  rw [result_runStage]
  refine (Traced.result_bind_of_ok (hrequest.param "sort") _).trans ?_
  rw [refusedSorts, ← sortParams_ofText] at hrefused ⊢
  rw [QueryRules.sort_of_isTextOrAbsent hrequest.sort, QueryRules.sort_ofText]
  exact Traced.result_bind_of_error (x := Traced.ofExcept _)
    (QueryRules.ensurePermitted_of_refused hrefused) _

/-- What a stage ahead of paging logs can be written. -/
theorem isWritable_runStage (hrules : q.rules.IsPlain) {stage : Stage} (hstage : stage ≠ .paginate)
    (c : Selection Memory) (before : Option Details) :
    (q.runStage c stage before).1.IsWritable := by
  refine Session.isWritable_bind_iff.mpr ⟨Traced.isWritable_log.mpr rfl, fun _ _ => ?_⟩
  cases stage with
  | sort => exact (Traced.isWritable_ofExcept _).bind fun raw =>
      QueryRules.isWritable_sort hrules.toSortsUsually raw c
  | «include» => exact (Traced.isWritable_ofExcept _).bind fun raw =>
      isWritable_includeRequested raw c
  | filter => exact (Traced.isWritable_ofExcept _).bind fun raw =>
      QueryRules.isWritable_filter (fun r hr => (hrules.filters r hr).strategy) raw c
  | paginate => exact absurd rfl hstage

/-- **Stages ahead of paging** succeed one after the other, if the sort stage is among them only if
the sorts are permitted. What comes after them starts at what they have reached, and the log of all
can be written if that of the later ones can. -/
theorem exists_runStages (hrules : q.rules.IsPlain) (hrequest : q.IsRequest) {later : List Stage} :
    ∀ {stages done : List Stage} {m : Memory}, q.Ahead done m → (stages ++ done).Nodup →
      .paginate ∉ stages → (.sort ∈ stages → q.refusedSorts = []) → ∀ before : Option Details,
      ∃ (done' : List Stage) (m' : Memory) (before' : Option Details),
        q.Ahead done' m' ∧ (stages ++ done).Perm done' ∧
        ((stages ++ later).foldlM q.runStage (.live m) before).1.result =
          (later.foldlM q.runStage (.live m') before').1.result ∧
        (((stages ++ later).foldlM q.runStage (.live m) before).1.IsWritable ↔
          (later.foldlM q.runStage (.live m') before').1.IsWritable)
  | [], done, m, hm, _, _, _, before => ⟨done, m, before, hm, .refl done, rfl, .rfl⟩
  | stage :: rest, done, m, hm, hnodup, hpaging, hpermitted, before => by
    rw [List.cons_append, List.nodup_cons] at hnodup
    rw [List.mem_cons, not_or] at hpaging
    have hnew : stage ∉ done := fun hmem => hnodup.1 (List.mem_append_right _ hmem)
    obtain ⟨m', hrun, hm'⟩ := exists_runStage hrules hrequest hm hnew (Ne.symm hpaging.1)
      (fun hsort => hpermitted (hsort ▸ List.mem_cons_self)) before
    have hperm : (stage :: (rest ++ done)).Perm (rest ++ stage :: done) := List.perm_middle.symm
    obtain ⟨done', m'', before', hm'', hdone, hrest, hlog⟩ :=
      exists_runStages hrules hrequest hm' (hperm.nodup_iff.mp (List.nodup_cons.mpr hnodup))
        hpaging.2 (fun hsort => hpermitted (List.mem_cons_of_mem _ hsort))
        (q.runStage (.live m) stage before).2
    refine ⟨done', m'', before', hm'', hperm.trans hdone, ?_, ?_⟩
    · rw [List.cons_append, List.foldlM_cons, Session.run_bind_of_ok hrun]
      exact hrest
    · rw [List.cons_append, List.foldlM_cons, Session.isWritable_bind_iff, ← hlog]
      constructor
      · exact fun h => h.2 _ hrun
      · intro h
        refine ⟨isWritable_runStage hrules (Ne.symm hpaging.1) _ before, fun s hs => ?_⟩
        cases hrun.symm.trans hs
        exact h

/-- Attributes that no rule permits are reported in whatever order the stages run: those ahead of
the sort stage do not fail. -/
theorem result_runStages_of_refused (hrules : q.rules.IsPlain) (hrequest : q.IsRequest)
    (hrefused : q.refusedSorts ≠ []) {stages : List Stage} (later : List Stage)
    (hnodup : stages.Nodup) (hpaging : .paginate ∉ stages) (hsort : .sort ∈ stages)
    (before : Option Details) :
    ((stages ++ later).foldlM q.runStage (.live q.collection) before).1.result =
        .error (.unpermitted q.refusedSorts) ∧
      ((stages ++ later).foldlM q.runStage (.live q.collection) before).1.IsWritable := by
  obtain ⟨ahead, rest, rfl⟩ := List.append_of_mem hsort
  rw [List.nodup_append] at hnodup
  have hahead : Stage.sort ∉ ahead := fun hmem => hnodup.2.2 _ hmem _ List.mem_cons_self rfl
  obtain ⟨_, m, before', -, -, hrun, hlog⟩ :=
    exists_runStages hrules hrequest (ahead_nil q) (by simpa using hnodup.1)
      (fun hmem => hpaging (List.mem_append_left _ hmem)) (fun hmem => absurd hmem hahead) before
  have hsorted := result_runStage_of_refused hrequest hrefused (.live m) before'
  have hwritten : (q.runStage (.live m) .sort before').1.IsWritable :=
    isWritable_runStage hrules Stage.noConfusion (.live m) before'
  rw [List.append_assoc, List.cons_append, hrun, hlog, List.foldlM_cons,
    Session.run_bind_of_error hsorted]
  exact ⟨rfl, hwritten⟩

/-! ## The page -/

/-- The page stage fails where the pager does. -/
theorem errorOf?_paginate (c : Selection Memory) (before : Option Details) :
    errorOf? (q.paginate .null c before).1.result = errorOf? (q.page .null c).result := by
  rw [result_paginate]
  cases (q.page .null c).result with
  | ok page => rfl
  | error e => rfl

/-- The records of the collection once all stages ahead of paging have run. -/
theorem Ahead.matching (hrequest : q.IsRequest) (hrecords : q.HasRecords) {done : List Stage}
    (hm : q.Ahead done m) (hfilter : .filter ∈ done) : m.matching = .ok q.remaining := by
  obtain ⟨matching, hmatching⟩ := hrecords.matching
  have hpredicates := hm.predicates
  rw [if_pos hfilter] at hpredicates
  rw [Memory.matching_eq_ok_iff, hpredicates, hm.items]
  refine ⟨fun item hitem => ?_, ?_⟩
  · obtain ⟨answer, hanswer⟩ := (Memory.matching_eq_ok_iff.mp hmatching).1 item hitem
    rw [Predicate.allHold_append, hanswer]
    cases answer with
    | false => exact ⟨false, rfl⟩
    | true => exact exists_allHold_conditions hrequest item
  · simp only [remaining, List.all_append]

/-- The log of the page stage is that of the pager. -/
theorem isWritable_paginate_iff (c : Selection Memory) (before : Option Details) :
    ([Stage.paginate].foldlM q.runStage c before).1.IsWritable ↔ (q.page .null c).IsWritable := by
  rw [List.foldlM_cons, Session.isWritable_bind_iff]
  refine ⟨fun h => ?_, fun h => ⟨?_, fun _ _ => Traced.isWritable_pure _⟩⟩
  · have hpage := (Session.isWritable_bind_iff.mp h.1).2 () rfl
    exact (Session.isWritable_bind_iff.mp hpage).1
  · refine Session.isWritable_bind_iff.mpr ⟨Traced.isWritable_log.mpr rfl, fun _ _ => ?_⟩
    refine Session.isWritable_bind_iff.mpr ⟨h, fun _ _ => ?_⟩
    exact Session.isWritable_bind_iff.mpr
      ⟨Traced.isWritable_pure _, fun _ _ => Traced.isWritable_pure _⟩

/-- **The page** is refused for its fields, or else for its number, or else for its links, and only
its event can be in the way of the log. -/
theorem page_of_ahead (hrules : q.rules.IsPlain) (hsettings : q.settings.IsTyped)
    (hrequest : q.IsRequest) (hrecords : q.HasRecords) (hpermitted : q.refusedSorts = [])
    {done : List Stage} (hm : q.Ahead done m) (hsort : .sort ∈ done) (hfilter : .filter ∈ done) :
    errorOf? (q.page .null (.live m)).result =
        (q.rules.paginator.fieldRefusal? (pageEntries q.entries)).or
          ((q.rules.paginator.rangeRefusal? q.settings (pageEntries q.entries)
            q.remaining.length).or (q.rules.paginator.linkRefusal? q.entries)) ∧
      ((q.page .null (.live m)).IsWritable ↔
        ∀ event, Pager.event? q.rules.paginator q.settings (pageEntries q.entries)
          q.remaining.length = some event → event.isWritable = true) := by
  have hmatching := hm.matching hrequest hrecords hfilter
  have hordering := hm.ordering
  rw [if_pos hsort] at hordering
  obtain ⟨sorted, hsorted⟩ := Memory.exists_sorted hmatching
    (hordering ▸ hrecords.compares hpermitted)
  obtain ⟨matching, hmatching', hperm⟩ := perm_of_sorted hsorted
  cases hmatching.symm.trans hmatching'
  have hcount : sorted.length ≤ 2 ^ 53 :=
    hperm.length_eq ▸ (List.length_filter_le _ _).trans hrecords.count
  have hmake : Pager.make q.rules.paginator q.params q.settings q.base =
      .ok ⟨q.rules.paginator, q.params, q.settings, q.base⟩ := by
    rcases hrules.paginator with hkind | hkind | hkind | hkind <;> rw [hkind] <;> rfl
  have hentries : Pager.entries ⟨q.rules.paginator, q.params, q.settings, q.base⟩ = .ok q.entries :=
    filterEntries_of_map hrequest.params
  have hpage : (q.page .null (.live m)).result = (Pager.paginate
      ⟨q.rules.paginator, q.params, q.settings, q.base⟩ (Selection.live m)).result :=
    (Traced.result_bind_of_ok (a := q.params) rfl _).trans (Traced.result_bind_of_ok hmake _)
  have hlog : (q.page .null (.live m)).IsWritable ↔ (Pager.paginate
      ⟨q.rules.paginator, q.params, q.settings, q.base⟩ (Selection.live m)).IsWritable :=
    (Traced.isWritable_bind_of_ok (Traced.isWritable_ofExcept (.ok q.params)) rfl).trans
      (Traced.isWritable_bind_of_ok (Traced.isWritable_ofExcept _) hmake)
  rw [hpage, hlog, Pager.errorOf?_paginate hrules.paginator hsettings hentries hsorted hcount,
    Pager.isWritable_paginate_iff hrules.paginator hsettings hentries hsorted hcount,
    hperm.length_eq]
  exact ⟨rfl, .rfl⟩

/-! ## All stages -/

/-- The refusal of sort attributes that no rule permits. -/
def sortRefusal? (q : Query Memory) : Option QueryError :=
  match q.refusedSorts with
  | [] => none
  | names => some (.unpermitted names)

/-- Why a request is refused: the first reason that holds. -/
def refusal? (q : Query Memory) : Option QueryError :=
  let page := pageEntries q.entries
  (q.sortRefusal?.or (q.rules.paginator.fieldRefusal? page)).or
    ((q.rules.paginator.rangeRefusal? q.settings page q.remaining.length).or
      (q.rules.paginator.linkRefusal? q.entries))

/-- The numbers of the page of a request whose sorts are permitted cannot all be written. -/
def LogsUnwritable (q : Query Memory) : Prop :=
  q.refusedSorts = [] ∧ ∃ event, Pager.event? q.rules.paginator q.settings (pageEntries q.entries)
    q.remaining.length = some event ∧ event.isWritable = false

/-- **Why the results fail**: for the first reason that holds, whatever the order of the stages
ahead of paging. Their log can be written unless the numbers of a page are in the way. -/
theorem errorOf?_results (hrules : q.rules.IsPlain) (hsettings : q.settings.IsTyped)
    (hlast : q.settings.pipeline.getLast? = some .paginate) (hrequest : q.IsRequest)
    (hrecords : q.HasRecords) (before : Option Details) :
    errorOf? (q.results before).1.result = q.refusal? ∧
      ((q.results before).1.IsWritable ↔ ¬ q.LogsUnwritable) := by
  obtain ⟨stages, hpipeline, hnodup, hahead, hmem⟩ := exists_stages_ahead hlast
  rw [results, hpipeline]
  unfold refusal? sortRefusal? LogsUnwritable
  by_cases hpermitted : q.refusedSorts = []
  · obtain ⟨done, m, before', hm, hdone, hrun, hlog⟩ :=
      exists_runStages hrules hrequest (ahead_nil q) (by simpa using hnodup) hahead
        (fun _ => hpermitted) before
    have hsort : Stage.sort ∈ done := hdone.mem_iff.mp (by simpa using hmem .sort (by decide))
    have hfilter : Stage.filter ∈ done :=
      hdone.mem_iff.mp (by simpa using hmem .filter (by decide))
    have hpage : ([Stage.paginate].foldlM q.runStage (.live m) before').1.result =
        (q.paginate .null (.live m) before').1.result :=
      (Session.result_bind_pure _ before').trans (result_runStage q _ _ before')
    obtain ⟨herror, hevent⟩ :=
      page_of_ahead hrules hsettings hrequest hrecords hpermitted hm hsort hfilter
    rw [hrun, hpage, errorOf?_paginate, herror, hlog, isWritable_paginate_iff, hevent, hpermitted]
    exact ⟨rfl, by simp⟩
  · obtain ⟨hrun, hlog⟩ := result_runStages_of_refused hrules hrequest hpermitted [.paginate]
      hnodup hahead (hmem .sort (by decide)) before
    rw [hrun]
    refine ⟨?_, iff_of_true hlog fun h => hpermitted h.1⟩
    split
    · next hnone => exact absurd hnone hpermitted
    · rfl

/-! ## The reasons -/

/-- The request sorts by an attribute that no rule permits. -/
def AsksUnpermitted (q : Query Memory) : Prop :=
  ∃ param ∈ sortParams (q.given "sort"), q.rules.isSortPermitted param.name = false

/-- The `page` parameter is a map with a field that is wrong. -/
def HasWrongField (q : Query Memory) : Prop :=
  ∃ page, q.given "page" = .map page ∧
    ∃ field ∈ q.rules.paginator.fields, (field.faultIn? page).isSome = true

/-- Of numbered pages with a count, one is asked for that lies after the last. -/
def IsPastLast (q : Query Memory) (number last : Int) : Prop :=
  q.rules.paginator = .page ∧ ∃ f, PageFields.read (pageEntries q.entries) = .ok f ∧
    f.number.getD 1 = number ∧ lastPage q.remaining.length (pageSize q.settings f) = last ∧
    last < number

/-- The page has links, and these would have to repeat a text that has no encoded form. -/
def CannotLink (q : Query Memory) (text : LooseText) : Prop :=
  (q.rules.paginator = .page ∨ q.rules.paginator = .countless) ∧
    QueryString.looseIn? (entriesAt 1 q.entries) = some text

theorem linkRefusal?_eq_some_iff {e : QueryError} :
    q.rules.paginator.linkRefusal? q.entries = some e ↔
      ∃ text, q.CannotLink text ∧ e = .unencodable text := by
  unfold Paginator.linkRefusal? CannotLink
  split
  · next hkind =>
    simp only [hkind, Option.map_eq_some_iff, looseInLinks?]
    simp [eq_comm]
  · next hkind =>
    simp only [hkind, Option.map_eq_some_iff, looseInLinks?]
    simp [eq_comm]
  · next hpage hcountless =>
    refine ⟨fun h => absurd h (by simp), ?_⟩
    rintro ⟨_, ⟨hkind | hkind, -⟩, -⟩
    · exact absurd hkind hpage
    · exact absurd hkind hcountless

theorem asksUnpermitted_iff : q.AsksUnpermitted ↔ q.refusedSorts ≠ [] := by
  rw [refusedSorts, ne_eq, QueryRules.unpermitted_eq_nil_iff]
  simp [AsksUnpermitted]

theorem pageEntries_eq (q : Query Memory) : pageEntries q.entries = entriesOf (q.given "page") := by
  unfold pageEntries given
  cases Value.lookup? "page" q.entries with
  | none => rfl
  | some v => cases v <;> rfl

theorem hasWrongField_iff :
    q.HasWrongField ↔ q.rules.paginator.wrongFields (pageEntries q.entries) ≠ [] := by
  rw [pageEntries_eq]
  constructor
  · rintro ⟨page, hmap, hfields⟩
    rw [hmap]
    exact Paginator.wrongFields_ne_nil_iff.mpr hfields
  · intro hwrong
    cases hgiven : q.given "page" with
    | map page =>
      rw [hgiven] at hwrong
      exact ⟨page, hgiven, Paginator.wrongFields_ne_nil_iff.mp hwrong⟩
    | _ =>
      rw [hgiven] at hwrong
      exact absurd (Paginator.wrongFields_nil _) hwrong

theorem refusal?_of_asksUnpermitted (h : q.AsksUnpermitted) :
    q.refusal? = some (.unpermitted q.refusedSorts) := by
  have hsort : q.sortRefusal? = some (.unpermitted q.refusedSorts) := by
    unfold sortRefusal?
    split
    · next hnone => exact absurd hnone (asksUnpermitted_iff.mp h)
    · rfl
  rw [refusal?, hsort]
  rfl

theorem sortRefusal?_of_not_asksUnpermitted (h : ¬ q.AsksUnpermitted) : q.sortRefusal? = none := by
  rw [asksUnpermitted_iff, not_not] at h
  rw [sortRefusal?, h]

theorem refusal?_of_hasWrongField (hsort : ¬ q.AsksUnpermitted) (h : q.HasWrongField) :
    q.refusal? = some (.invalidPage
      (fieldErrors (q.rules.paginator.wrongFields (pageEntries q.entries)))) := by
  have hfields : q.rules.paginator.fieldRefusal? (pageEntries q.entries) = some (.invalidPage
      (fieldErrors (q.rules.paginator.wrongFields (pageEntries q.entries)))) := by
    unfold Paginator.fieldRefusal?
    split
    · next hnone => exact absurd hnone (hasWrongField_iff.mp h)
    · rfl
  rw [refusal?, sortRefusal?_of_not_asksUnpermitted hsort, hfields]
  rfl

theorem refusal?_of_not_hasWrongField (hsort : ¬ q.AsksUnpermitted) (hfields : ¬ q.HasWrongField) :
    q.refusal? = (q.rules.paginator.rangeRefusal? q.settings (pageEntries q.entries)
      q.remaining.length).or (q.rules.paginator.linkRefusal? q.entries) := by
  rw [hasWrongField_iff, not_not] at hfields
  rw [refusal?, sortRefusal?_of_not_asksUnpermitted hsort, Paginator.fieldRefusal?, hfields]
  rfl

theorem rangeRefusal?_eq_some_iff {e : QueryError} :
    q.rules.paginator.rangeRefusal? q.settings (pageEntries q.entries) q.remaining.length = some e ↔
      ∃ number last, q.IsPastLast number last ∧ e = .pageOutOfRange (.int number) (.int last) := by
  unfold Paginator.rangeRefusal? IsPastLast
  split
  · next f hkind hread =>
    simp only [hkind, hread, true_and]
    constructor
    · intro h
      split at h
      · next hlt =>
        cases h
        exact ⟨_, _, ⟨f, rfl, rfl, rfl, hlt⟩, rfl⟩
      · cases h
    · rintro ⟨_, _, ⟨f', hread', rfl, rfl, hlt⟩, rfl⟩
      cases hread'
      exact if_pos hlt
  · next hother =>
    refine ⟨nofun, ?_⟩
    rintro ⟨_, _, ⟨hkind, f, hread, -⟩, -⟩
    exact (hother f hkind hread).elim

theorem rangeRefusal?_eq_none_iff :
    q.rules.paginator.rangeRefusal? q.settings (pageEntries q.entries) q.remaining.length = none ↔
      ∀ number last, ¬ q.IsPastLast number last := by
  simp only [Option.eq_none_iff_forall_ne_some, ne_eq, rangeRefusal?_eq_some_iff]
  constructor
  · exact fun h number last hpast => h _ ⟨number, last, hpast, rfl⟩
  · rintro h _ ⟨number, last, hpast, -⟩
    exact h number last hpast

theorem linkRefusal?_eq_none_iff :
    q.rules.paginator.linkRefusal? q.entries = none ↔ ∀ text, ¬ q.CannotLink text := by
  simp only [Option.eq_none_iff_forall_ne_some, ne_eq, linkRefusal?_eq_some_iff]
  constructor
  · exact fun h text hlink => h _ ⟨text, hlink, rfl⟩
  · rintro h _ ⟨text, hlink, -⟩
    exact h text hlink

/-- **Which requests fail, and how.** A table of rules without strategies of their own is asked for
records in memory, in stages of any order that end with paging. If an attribute to sort by is not
permitted, exactly these attributes are reported. Else if fields of the page are wrong, exactly
these are, each with one message and in the order of their declaration. Else a page after the last
one is, where the records are counted. Else, where the page has links, a text that these cannot
repeat makes the results fail. Nothing else does, unless the log is written down: then the numbers
of the page have to be writable. -/
theorem results_fail_iff (hrules : q.rules.IsPlain) (hsettings : q.settings.IsTyped)
    (hlast : q.settings.pipeline.getLast? = some .paginate) (hrequest : q.IsRequest)
    (hrecords : q.HasRecords) (before : Option Details) :
    (∀ names, (q.results before).1.result = .error (.unpermittedSort names) ↔
      q.AsksUnpermitted ∧ names = q.refusedSorts.eraseDups.map .str) ∧
    (∀ errors, (q.results before).1.result = .error (.invalidPage errors) ↔
      ¬ q.AsksUnpermitted ∧ q.HasWrongField ∧
        errors = fieldErrors (q.rules.paginator.wrongFields (pageEntries q.entries))) ∧
    (∀ number last : Int,
      (q.results before).1.result = .error (.pageOutOfRange (.int number) (.int last)) ↔
        ¬ q.AsksUnpermitted ∧ ¬ q.HasWrongField ∧ q.IsPastLast number last) ∧
    (∀ text, (q.results before).1.result = .error (.unencodable text) ↔
      ¬ q.AsksUnpermitted ∧ ¬ q.HasWrongField ∧ (∀ number last, ¬ q.IsPastLast number last) ∧
        q.CannotLink text) ∧
    ((∃ page, (q.results before).1.result = .ok page) ↔
      ¬ q.AsksUnpermitted ∧ ¬ q.HasWrongField ∧ (∀ number last, ¬ q.IsPastLast number last) ∧
        ∀ text, ¬ q.CannotLink text) ∧
    (q.LogsUnwritable → (q.results.written before).1.result =
      .error (.invalidValue (.tooManyDigits none))) ∧
    (¬ q.LogsUnwritable → q.results.written before = q.results before) := by
  obtain ⟨hresults, hlog⟩ := errorOf?_results hrules hsettings hlast hrequest hrecords before
  rw [← and_assoc, ← and_assoc, ← and_assoc, ← and_assoc]
  refine ⟨?_, fun h => Session.result_written_of_not_isWritable fun hw => hlog.mp hw h,
    fun h => Session.written_of_isWritable (hlog.mpr h)⟩
  rw [and_assoc, and_assoc, and_assoc]
  by_cases hsort : q.AsksUnpermitted
  · rw [refusal?_of_asksUnpermitted hsort, errorOf?_eq_some] at hresults
    simp [hresults, hsort, QueryError.unpermitted, eq_comm]
  by_cases hfields : q.HasWrongField
  · rw [refusal?_of_hasWrongField hsort hfields, errorOf?_eq_some] at hresults
    simp [hresults, hsort, hfields, eq_comm]
  have herror (e : QueryError) : (q.results before).1.result = .error e ↔
      (∃ number last, q.IsPastLast number last ∧ e = .pageOutOfRange (.int number) (.int last)) ∨
        (∀ number last, ¬ q.IsPastLast number last) ∧
          ∃ text, q.CannotLink text ∧ e = .unencodable text := by
    rw [← errorOf?_eq_some, hresults, refusal?_of_not_hasWrongField hsort hfields,
      Option.or_eq_some_iff, rangeRefusal?_eq_some_iff, rangeRefusal?_eq_none_iff,
      linkRefusal?_eq_some_iff]
  have hok : (∃ page, (q.results before).1.result = .ok page) ↔
      (∀ number last, ¬ q.IsPastLast number last) ∧ ∀ text, ¬ q.CannotLink text := by
    rw [← errorOf?_eq_none, hresults, refusal?_of_not_hasWrongField hsort hfields,
      Option.or_eq_none_iff, rangeRefusal?_eq_none_iff, linkRefusal?_eq_none_iff]
  simp [herror, hok, hsort, hfields]

/-- Records of teams, filtered by the team if a condition is met, and a request for them. -/
def teamQuery (kind : Paginator) (params : Value) : Query Memory where
  collection :=
    { items :=
        [.record [("id", .int 1), ("age", .int 5), ("team", .str "a")],
          .record [("id", .int 2), ("age", .null), ("team", .str "b")],
          .record [("id", .int 3), ("age", .int 7), ("team", .str "a")]]
      predicates := [.equation "team" (.list [.str "a", .str "b"])] }
  params := params
  rules :=
    { filters := [⟨"team", .equality "team", "team", false, [⟨.always (.bool true), true⟩]⟩]
      sorts := OrderedMap.empty.insert "age" (.byName "age")
      paginator := kind }
  settings :=
    { Settings.default with
      pipeline := [.filter, .include, .sort, .paginate]
      pipeline_isPerm := by decide }
  base := none
  name := "people"

theorem isPlain_teamQuery {kind : Paginator} (h : kind = .page ∨ kind = .countless)
    (params : Value) : (teamQuery kind params).rules.IsPlain where
  sorts := by
    intro name s hs
    by_cases hname : name = "age"
    · subst hname
      exact (Option.some.inj ((OrderedMap.get?_insert_self _ _ _).symm.trans hs)).symm
    · cases (OrderedMap.get?_insert_of_ne hname _ _).symm.trans hs
  dynamicSorts := rfl
  defaultSort := fun usual husual => by cases husual
  filters := by
    intro r hr
    rw [List.mem_singleton.mp hr]
    refine ⟨rfl, by decide, fun g hg query => ?_⟩
    rw [List.mem_singleton.mp hg]
    exact ⟨true, rfl⟩
  paginator := h.imp_right fun h => .inr (.inl h)

/-- Where no record is left, there is nothing to compare. -/
theorem hasRecords_teamQuery {kind : Paginator} {params : Value}
    (h : (teamQuery kind params).remaining = []) : (teamQuery kind params).HasRecords := by
  have hcount : (teamQuery kind params).collection.items.length ≤ 2 ^ 53 :=
    show 3 ≤ 2 ^ 53 by decide
  refine ⟨hcount, ⟨(teamQuery kind params).collection.items, by with_unfolding_all rfl⟩,
    fun _ clause _ => ?_⟩
  rw [h]
  exact ⟨fun item hitem => (List.not_mem_nil hitem).elim, .nil⟩

/-- A page whose size is right and whose number and offset are wrong. -/
def misnumbered : Value := .ofFields
  [("sort", .str "-age"), ("filter", .ofFields [("team", .str "a")]),
    ("page", .ofFields [("offset", .int (-1)), ("size", .int 5), ("number", .str "two")])]

/-- Half a character. -/
def half : LooseText := ⟨[0xD800], rfl, rfl⟩

/-- A team that is half a character. -/
def halfTeam : Value := .ofFields [("filter", .ofFields [("team", .loose half)])]

/-- The page of a number. -/
def numbered (number : Int) : Value :=
  .ofFields [("page", .ofFields [("number", .int number)])]

theorem read_numbered (kind : Paginator) {number : Int} (h : 1 ≤ number) :
    PageFields.read (pageEntries (teamQuery kind (numbered number)).entries) =
      .ok ⟨some number, none, none, none⟩ :=
  have hread : PageFields.read [] = .ok ⟨none, none, none, none⟩ := rfl
  PageFields.read_put_number hread h

theorem isRequest_numbered (kind : Paginator) (number : Int) :
    (teamQuery kind (numbered number)).IsRequest where
  params := .inr ⟨_, rfl⟩
  sort := by rfl
  includes := by rfl
  filter := .inl (by rfl)

theorem not_hasWrongField_numbered {number : Int} (h : 1 ≤ number) :
    ¬ (teamQuery .countless (numbered number)).HasWrongField := by
  have hread := errorOf?_pageFields (pageEntries (teamQuery .countless (numbered number)).entries)
  rw [read_numbered .countless h] at hread
  rw [hasWrongField_iff, not_not]
  exact Paginator.fieldRefusal?_eq_none_iff.mp hread.symm

theorem hasLinks_numbered (kind : Paginator) (number : Int) :
    HasLinks (teamQuery kind (numbered number)).entries :=
  hasLinks_of_areEncodable rfl

/-- The page of a number is in the way of the log if the number of records before it is. -/
theorem logsUnwritable_numbered {number : Int} (h : 1 ≤ number)
    (hstart : Number.isWritable (20 * (number - 1) + 0) = false) :
    (teamQuery .countless (numbered number)).LogsUnwritable := by
  refine ⟨by rfl, .pagingCountless number (20 * (number - 1) + 0) 20, ?_, ?_⟩
  · unfold Pager.event?
    rw [read_numbered .countless h]
    rfl
  · simp only [LogEvent.isWritable, List.all_cons, hstart, Bool.false_and, Bool.and_false]

/-- The greatest page number that can be written. -/
def farNumber : Int := (10 ^ Number.maxDigits : Nat) - 1

theorem one_le_farNumber : 1 ≤ farNumber ∧
    Number.isWritable (20 * (farNumber - 1) + 0) = false := by
  have hlarge : 10 ≤ 10 ^ Number.maxDigits := Nat.le_self_pow (by decide) 10
  unfold Number.isWritable farNumber
  generalize 10 ^ Number.maxDigits = n at hlarge
  rw [decide_eq_false_iff_not]
  omega

theorem isRequest_misnumbered : (teamQuery .page misnumbered).IsRequest where
  params := .inr ⟨_, rfl⟩
  sort := by rfl
  includes := by rfl
  filter := .inr ⟨[(.str "team", .str "a")], by rfl, fun e he items => by
    rw [List.mem_singleton.mp he]
    exact Value.noConfusion⟩

theorem isRequest_halfTeam : (teamQuery .page halfTeam).IsRequest where
  params := .inr ⟨_, rfl⟩
  sort := by rfl
  includes := by rfl
  filter := .inr ⟨[(.str "team", .loose half)], by rfl, fun e he items => by
    rw [List.mem_singleton.mp he]
    exact Value.noConfusion⟩

/-- The two records that are left have ages. -/
theorem hasRecords_misnumbered : (teamQuery .page misnumbered).HasRecords := by
  have horder : (teamQuery .page misnumbered).order =
      [(.str "age", .desc), (.str "id", .asc)] := by
    rfl
  have hremaining : (teamQuery .page misnumbered).remaining =
      [.record [("id", .int 1), ("age", .int 5), ("team", .str "a")],
        .record [("id", .int 3), ("age", .int 7), ("team", .str "a")]] := by
    with_unfolding_all rfl
  refine ⟨by decide, ⟨(teamQuery .page misnumbered).collection.items, by with_unfolding_all rfl⟩,
    fun _ clause hclause => ?_⟩
  rw [hremaining]
  rw [horder] at hclause
  rcases List.mem_pair.mp hclause with rfl | rfl
  · exact Sortable.orders ⟨fun item _ => ⟨_, rfl⟩, by decide +kernel⟩ |>.toCompares
  · exact Sortable.orders ⟨fun item _ => ⟨_, rfl⟩, by decide +kernel⟩ |>.toCompares

theorem wrongFields_misnumbered :
    (teamQuery .page misnumbered).rules.paginator.wrongFields
        (pageEntries (teamQuery .page misnumbered).entries) =
      [("number", .unreadable), ("offset", .below 0)] := by
  rfl

/-- Both fields are reported, the number first. A team that is half a character is in no record and
spoils the links of the page. With a log that is written down, a page far away cannot be given. -/
theorem results_of_teamQuery :
    ((teamQuery .page misnumbered).results none).1.result = .error (.invalidPage (.ofFields
      [("page.number",
        .list [.str "Input should be a valid integer, unable to parse string as an integer"]),
        ("page.offset", .list [.str "Input should be greater than or equal to 0"])])) ∧
    ((teamQuery .page halfTeam).results none).1.result = .error (.unencodable half) ∧
    (∃ page, ((teamQuery .countless (numbered farNumber)).results none).1.result = .ok page) ∧
    ((teamQuery .countless (numbered farNumber)).results.written none).1.result =
      .error (.invalidValue (.tooManyDigits none)) := by
  have hnoRecords : (teamQuery .page halfTeam).remaining = [] := by
    decide +kernel
  have hnoneFar : (teamQuery .countless (numbered farNumber)).remaining = [] := by
    generalize farNumber = number
    with_unfolding_all rfl
  have hsorts : ¬ (teamQuery .page misnumbered).AsksUnpermitted := by
    rw [asksUnpermitted_iff, not_not]
    rfl
  have hfields : (teamQuery .page misnumbered).HasWrongField := by
    rw [hasWrongField_iff, wrongFields_misnumbered]
    exact List.cons_ne_nil _ _
  obtain ⟨-, hinvalid, -⟩ := results_fail_iff (isPlain_teamQuery (.inl rfl) misnumbered)
    ⟨rfl, rfl, rfl⟩ rfl isRequest_misnumbered hasRecords_misnumbered none
  obtain ⟨-, -, -, hunencodable, -⟩ := results_fail_iff (isPlain_teamQuery (.inl rfl) halfTeam)
    ⟨rfl, rfl, rfl⟩ rfl isRequest_halfTeam (hasRecords_teamQuery hnoRecords) none
  obtain ⟨-, -, -, -, hok, hlog, -⟩ := results_fail_iff
    (isPlain_teamQuery (.inr rfl) (numbered farNumber)) ⟨rfl, rfl, rfl⟩ rfl
    (isRequest_numbered .countless farNumber) (hasRecords_teamQuery hnoneFar) none
  refine ⟨(hinvalid _).mpr ⟨hsorts, hfields, ?_⟩,
    (hunencodable half).mpr ⟨?_, ?_, ?_, .inl rfl, ?_⟩, hok.mpr ⟨?_, ?_, ?_, ?_⟩,
    hlog (logsUnwritable_numbered one_le_farNumber.1 one_le_farNumber.2)⟩
  · rw [wrongFields_misnumbered]
    rfl
  · rw [asksUnpermitted_iff, not_not]
    rfl
  · rw [hasWrongField_iff, not_not]
    rfl
  · rw [← rangeRefusal?_eq_none_iff, hnoRecords]
    rfl
  · decide +kernel
  · rw [asksUnpermitted_iff, not_not]
    generalize farNumber = number
    rfl
  · exact not_hasWrongField_numbered one_le_farNumber.1
  · rintro number last ⟨hkind, -⟩
    cases hkind
  · rw [← linkRefusal?_eq_none_iff]
    exact congrArg (Option.map _) (hasLinks_numbered .countless farNumber)

end Query

end ResourceQuery
