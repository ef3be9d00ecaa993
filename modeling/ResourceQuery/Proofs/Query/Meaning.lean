import ResourceQuery.Proofs.Collection.KeyOrder
import ResourceQuery.Proofs.Collection.Matching
import ResourceQuery.Proofs.Collection.Window
import ResourceQuery.Proofs.Pagination.Partition
import ResourceQuery.Proofs.Query.Stages

/-!
# What a query in memory means

A request is served by stages in any order, which only describe what is wanted; the collection
then does it. Of a query with usual rules whose last stage is paging, the outcome can be said at
once: the records that satisfy the predicates of the collection and the filters of the request,
sorted by one ordering, and of these one window.

Headlines:
* **`Query.order`**: the ordering of the records.
* **`Query.kept`**: the records that pass the filters.
* **`PageWindow.cut`**: the records of a page.
* **`Query.Reached`**: the state of the collection after some of the stages.
* **`Query.reached_stage`**, **`Query.reached_stages`**: what one stage and what all stages ahead
  of paging keep.
* **`Query.rows_of_results`**: the records of the results.
-/

namespace ResourceQuery

open Pagination

namespace Query

variable {q : Query Memory}

/-- The parameters of the request; what is no map holds none. -/
def entries (q : Query Memory) : List (Value × Value) := entriesOf q.params

/-- A parameter of the request, absent if it is not given. -/
def given (q : Query Memory) (name : String) : Value := (Value.lookup? name q.entries).getD .null

/-- The ordering of the records: that of the collection unless it is replaced, then what the request
asks for or else the default sort, then what breaks ties. -/
def order (q : Query Memory) : List (Value × Direction) :=
  q.rules.orderOf q.settings (sortParams (q.given "sort")) q.collection.ordering

/-- The predicates of the filters that the request enables. -/
def equations (q : Query Memory) : List Predicate :=
  q.rules.equations (entriesOf (q.given "filter"))

/-- The records that satisfy the predicates of the collection and the enabled filters. -/
def kept (q : Query Memory) : List Value :=
  q.collection.items.filter fun item =>
    q.collection.predicates.all (Predicate.isMet item) && q.equations.all (Predicate.isMet item)

theorem param_eq (name : String) : q.param name =
    (filterEntries q.params).map fun entries => (Value.lookup? name entries).getD .null := by
  unfold param filterEntries
  by_cases htruthy : q.params.isTruthy = true
  · rw [if_pos htruthy, if_pos htruthy]
  · rw [if_neg htruthy, if_neg htruthy]
    rfl

theorem given_of_param {name : String} {v : Value} (h : q.param name = .ok v) :
    v = q.given name := by
  rw [param_eq] at h
  cases hentries : filterEntries q.params with
  | error e =>
    rw [hentries] at h
    cases h
  | ok entries =>
    rw [hentries] at h
    cases h
    rw [given, Query.entries, eq_entriesOf hentries]

/-! ## The stages ahead of paging -/

/-- A pipeline that ends with paging is the other three stages in some order, then paging. -/
theorem exists_stages_ahead {settings : Settings}
    (hlast : settings.pipeline.getLast? = some .paginate) :
    ∃ stages, settings.pipeline = stages ++ [.paginate] ∧ stages.Nodup ∧ .paginate ∉ stages ∧
      ∀ stage, stage ≠ .paginate → stage ∈ stages := by
  obtain ⟨stages, hpipeline⟩ := List.getLast?_eq_some_iff.mp hlast
  have hperm : (stages ++ [Stage.paginate]).Perm Stage.all := by
    rw [← hpipeline]
    exact List.isPerm_iff.mp settings.pipeline_isPerm
  have hnodup := List.nodup_append.mp (hperm.nodup_iff.mpr (by decide : Stage.all.Nodup))
  refine ⟨stages, hpipeline, hnodup.1, ?_, ?_⟩
  · intro hmem
    exact hnodup.2.2 _ hmem _ (List.mem_singleton.mpr rfl) rfl
  · intro stage hstage
    have hall : stage ∈ stages ++ [Stage.paginate] :=
      hperm.mem_iff.mpr (by cases stage <;> decide)
    rcases List.mem_append.mp hall with hleft | hright
    · exact hleft
    · exact absurd (List.mem_singleton.mp hright) hstage

/-- The collection after some of the stages: what each of them adds is there exactly if the stage
has run. -/
structure Reached (q : Query Memory) (done : List Stage) (m : Memory) : Prop where
  items : m.items = q.collection.items
  predicates : m.predicates =
    q.collection.predicates ++ if .filter ∈ done then q.equations else []
  ordering : m.ordering = if .sort ∈ done then q.order else q.collection.ordering

theorem reached_nil (q : Query Memory) : q.Reached [] q.collection where
  items := rfl
  predicates := by simp
  ordering := by simp

/-- **One stage** adds its part to the collection. -/
theorem reached_stage (h : q.rules.IsUsual) {done : List Stage} {m : Memory} {stage : Stage}
    (hm : q.Reached done m) (hnew : stage ∉ done) (hstage : stage ≠ .paginate)
    {before : Option Details} {s : Selection Memory}
    (hrun : (q.runStage (.live m) stage before).1.result = .ok s) :
    ∃ m', s = .live m' ∧ q.Reached (stage :: done) m' := by
  obtain ⟨_, _, hrun⟩ := Session.result_bind_eq_ok_iff.mp hrun
  cases stage
  · obtain ⟨raw, hraw, hrun⟩ := Traced.result_bind_eq_ok_iff.mp hrun
    refine ⟨_, QueryRules.exists_of_sort h.sortsUsually hrun, hm.items, ?_, ?_⟩
    · simpa using hm.predicates
    · simp [hm.ordering, hnew, given_of_param hraw, order]
  · obtain ⟨raw, _, hrun⟩ := Traced.result_bind_eq_ok_iff.mp hrun
    obtain ⟨included, rfl⟩ := exists_of_includeRequested hrun
    refine ⟨_, rfl, hm.items, ?_, ?_⟩
    · simpa using hm.predicates
    · simpa using hm.ordering
  · obtain ⟨raw, hraw, hrun⟩ := Traced.result_bind_eq_ok_iff.mp hrun
    refine ⟨_, QueryRules.exists_of_filter h hrun, hm.items, ?_, ?_⟩
    · simp [hm.predicates, hnew, given_of_param hraw, equations]
    · simpa using hm.ordering
  · exact absurd rfl hstage

/-- **All stages ahead of paging** add their parts, in whatever order they run. -/
theorem reached_stages (h : q.rules.IsUsual) {s : Selection Memory} :
    ∀ {stages done : List Stage} {m : Memory} {before : Option Details},
      q.Reached done m → (stages ++ done).Nodup → .paginate ∉ stages →
      ((stages ++ [Stage.paginate]).foldlM q.runStage (.live m) before).1.result = .ok s →
      ∃ (done' : List Stage) (m' : Memory) (before' : Option Details),
        q.Reached done' m' ∧ (stages ++ done).Perm done' ∧
        (q.paginate .null (.live m') before').1.result = .ok s
  | [], done, m, before, hm, _, _, hrun => by
    obtain ⟨page, hpage, hrun⟩ := Session.result_bind_eq_ok_iff.mp hrun
    obtain ⟨_, _, hpage⟩ := Session.result_bind_eq_ok_iff.mp hpage
    cases hrun
    exact ⟨done, m, _, hm, List.Perm.refl done, hpage⟩
  | stage :: rest, done, m, before, hm, hnodup, hpaging, hrun => by
    rw [List.cons_append, List.foldlM_cons] at hrun
    rw [List.cons_append, List.nodup_cons] at hnodup
    obtain ⟨next, hnext, hrun⟩ := Session.result_bind_eq_ok_iff.mp hrun
    have hnew : stage ∉ done := fun hmem => hnodup.1 (List.mem_append_right _ hmem)
    have hstage : stage ≠ .paginate := fun heq => hpaging (heq ▸ List.mem_cons_self)
    obtain ⟨m', rfl, hm'⟩ := reached_stage h hm hnew hstage hnext
    have hperm : (stage :: (rest ++ done)).Perm (rest ++ stage :: done) := List.perm_middle.symm
    have hnodup' : (rest ++ stage :: done).Nodup :=
      hperm.nodup_iff.mp (List.nodup_cons.mpr hnodup)
    obtain ⟨done', m'', before', hm'', hdone, hpage⟩ :=
      reached_stages h hm' hnodup' (fun hmem => hpaging (List.mem_cons_of_mem _ hmem)) hrun
    exact ⟨done', m'', before', hm'', hperm.trans hdone, hpage⟩

/-! ## The page -/

/-- The page stage gives a window of the collection. -/
theorem exists_of_paginate (hkind : q.rules.paginator = .page) (hsettings : q.settings.IsTyped)
    {m : Memory} {before : Option Details} {s : Selection Memory}
    (h : (q.paginate .null (.live m) before).1.result = .ok s) :
    ∃ f matching, PageFields.read (pageEntries q.entries) = .ok f ∧ m.matching = .ok matching ∧
      s = .live { m with
        offset := .int (PageWindow.ofFields q.settings f).start
        limit := (PageWindow.ofFields q.settings f).size.toValue } := by
  obtain ⟨⟨records, details⟩, hpage, h⟩ := Session.result_bind_eq_ok_iff.mp h
  obtain ⟨_, _, h⟩ := Session.result_bind_eq_ok_iff.mp h
  cases h
  obtain ⟨params, hparams, hpage⟩ := Traced.result_bind_eq_ok_iff.mp hpage
  obtain ⟨pager, hpager, hpage⟩ := Traced.result_bind_eq_ok_iff.mp hpage
  cases hparams
  rw [hkind] at hpager
  cases hpager
  obtain ⟨entries, hentries, hbegin⟩ := exists_of_paginate_of_page rfl hpage
  obtain ⟨f, matching, hread, hmatching, rfl⟩ := exists_of_result_beginPage hsettings hbegin
  have hsame : entries = q.entries := eq_entriesOf hentries
  subst hsame
  exact ⟨f, matching, hread, hmatching, rfl⟩

/-- **The records of the results.** -/
theorem rows_of_results {remembered : Option Details} {page : Selection Memory}
    (hrules : q.rules.IsUsual) (hsettings : q.settings.IsTyped)
    (hlast : q.settings.pipeline.getLast? = some .paginate)
    (h : (q.results remembered).1.result = .ok page) :
    ∃ f, PageFields.read (pageEntries q.entries) = .ok f ∧
      (Collection.all page).result =
        (q.order.foldrM sortByClause q.kept).map (PageWindow.ofFields q.settings f).cut ∧
      ((∀ clause ∈ q.order, Sortable clause q.kept) →
        (Collection.all page).result =
          .ok ((PageWindow.ofFields q.settings f).cut (q.kept.mergeSort (orderLe q.order)))) := by
  obtain ⟨stages, hpipeline, hnodup, hahead, hmem⟩ := exists_stages_ahead hlast
  rw [results, hpipeline] at h
  obtain ⟨done, m, before, hreached, hdone, hpage⟩ :=
    reached_stages hrules (reached_nil q) (by simpa using hnodup) hahead h
  have hsort : Stage.sort ∈ done := hdone.mem_iff.mp (by simpa using hmem .sort (by decide))
  have hfilter : Stage.filter ∈ done :=
    hdone.mem_iff.mp (by simpa using hmem .filter (by decide))
  have hordering := hreached.ordering
  have hpredicates := hreached.predicates
  rw [if_pos hsort] at hordering
  rw [if_pos hfilter] at hpredicates
  obtain ⟨f, matching, hread, hmatching, rfl⟩ :=
    exists_of_paginate hrules.paginator hsettings hpage
  have hkept : matching = q.kept := by
    rw [(Memory.matching_eq_ok_iff.mp hmatching).2, hreached.items, hpredicates, kept]
    exact List.filter_congr fun item _ => List.all_append
  have hrows : (Collection.all (Selection.live { m with
      offset := .int (PageWindow.ofFields q.settings f).start
      limit := (PageWindow.ofFields q.settings f).size.toValue })).result =
        (q.order.foldrM sortByClause q.kept).map (PageWindow.ofFields q.settings f).cut := by
    have hsorted : m.sorted = q.order.foldrM sortByClause q.kept := by
      rw [Memory.sorted, hmatching, hordering, hkept]
      rfl
    rw [← hsorted]
    show Memory.rows _ = _
    exact rows_of_pageWindow hsettings (PageFields.bounds_of_read hread)
  refine ⟨f, hread, hrows, fun hsortable => ?_⟩
  rw [hrows, foldrM_sortByClause hsortable]
  rfl

/-- Two of three records pass the filter. Of these, the youngest last, the second page of one
record holds the younger one. -/
theorem rows_of_second_page :
    ∃ (q : Query Memory) (page : Selection Memory),
      q.rules.IsUsual ∧ q.settings = .default ∧ q.collection.items.length = 3 ∧
      (q.results none).1.result = .ok page ∧
      (Collection.all page).result =
        .ok [.record [("id", .int 1), ("age", .int 5), ("team", .str "a")]] := by
  let rules : QueryRules Memory :=
    { filters := [⟨"team", .equality "team", "team", false, []⟩]
      sorts := OrderedMap.empty.insert "age" (.byName "age") }
  let q : Query Memory :=
    { collection :=
        { items :=
            [.record [("id", .int 1), ("age", .int 5), ("team", .str "a")],
              .record [("id", .int 2), ("age", .int 9), ("team", .str "b")],
              .record [("id", .int 3), ("age", .int 7), ("team", .str "a")]] }
      params := .ofFields
        [("sort", .str "-age"), ("filter", .ofFields [("team", .str "a")]),
          ("page", .ofFields [("number", .int 2), ("size", .int 1)])]
      rules
      settings := .default
      base := none
      name := "people" }
  have hrules : q.rules.IsUsual :=
    { filters := fun r hr => by
        rw [List.mem_singleton.mp hr]
        exact ⟨rfl, rfl⟩
      sorts := fun name s hs => by
        by_cases hname : name = "age"
        · subst hname
          exact (Option.some.inj ((OrderedMap.get?_insert_self _ _ _).symm.trans hs)).symm
        · cases (OrderedMap.get?_insert_of_ne hname _ _).symm.trans hs
      dynamicSorts := rfl
      defaultSort := fun _ hs => by cases hs
      paginator := rfl }
  have hsettings : q.settings.IsTyped := ⟨rfl, rfl, rfl⟩
  have hresults : ∃ page, (q.results none).1.result = .ok page := by
    have hok : (q.results none).1.result.isOk = true := by
      decide +kernel
    cases hresult : (q.results none).1.result with
    | ok page => exact ⟨page, rfl⟩
    | error e =>
      rw [hresult] at hok
      cases hok
  obtain ⟨page, hpage⟩ := hresults
  obtain ⟨f, hread, -, hsorted⟩ := rows_of_results hrules hsettings rfl hpage
  refine ⟨q, page, hrules, rfl, rfl, hpage, ?_⟩
  have hfields : PageFields.read (pageEntries q.entries) = .ok ⟨some 2, some 1, none, none⟩ := by
    rfl
  cases hfields.symm.trans hread
  have horder : q.order = [(.str "age", .desc), (.str "id", .asc)] := by
    rfl
  have hkept : q.kept = [.record [("id", .int 1), ("age", .int 5), ("team", .str "a")],
      .record [("id", .int 3), ("age", .int 7), ("team", .str "a")]] := by
    with_unfolding_all rfl
  have hsortable : ∀ clause ∈ q.order, Sortable clause q.kept := by
    rw [hkept, horder]
    intro clause hclause
    rcases List.mem_pair.mp hclause with rfl | rfl
    · exact ⟨fun item _ => ⟨_, rfl⟩, by decide +kernel⟩
    · exact ⟨fun item _ => ⟨_, rfl⟩, by decide +kernel⟩
  have hranks := ranks_orderLe hsortable
  rw [hkept, horder] at hranks
  rw [hsorted hsortable, hkept, horder,
    hranks.mergeSort_eq_of_places rfl (.swap 0 1 []) (by decide +kernel)]
  rfl

end Query

end ResourceQuery
