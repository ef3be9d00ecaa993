import ResourceQuery.Proofs.Query.Run
import ResourceQuery.Proofs.Value.Lookup

/-!
# The details that a query remembers

Whatever a query is asked to do, and whether it succeeds, it remembers the details of the last page
that it completed. The other stages and the look-ups have no part in this. A page is remembered
as a whole or not at all, also if a stage after it fails.

A program may page in a way of its own, so the operations are taken here with any way to make
pages; the paginator of the rule table is one.

Headlines:
* **`PageMaker`**: a way to make pages; **`Query.serveBy`**: the operations with such a way, and
  **`Query.serveBy_page`** those of the table.
* **`Query.pagesOf`**: the pages that an operation completes, read off its stages alone.
* **`Query.remembered_stageBy`**, **`Query.remembered_serveBy`**: what one stage and one operation
  do to the details.
* **`Query.rememberedAfter_eq`**: what any number of operations do.
* **`Query.pagesOf_results`**: the pages of all stages together.
* **`gives_paginate`**: details are maps, whatever paginator reports them.
* **`responseOptions_map`**: what of the details goes into a response.
* **`Query.details_of_operations`**: the details after any operations.
-/

namespace ResourceQuery

open Pagination

/-- A way to make pages: the records of a page and its details, for a collection and a page
parameter that may stand in for that of the request. -/
abbrev PageMaker (C : Type) := Value → Selection C → Traced (Selection C × Details)

namespace Session

variable {α β : Type}

/-- What is remembered does not depend on what is made of a result. -/
theorem remembered_bind_pure (x : Session α) (f : α → β) (before : Option Details) :
    ((x >>= fun a => pure (f a)) before).2 = (x before).2 := by
  cases h : (x before).1.result with
  | error e => rw [run_bind_of_error h]
  | ok a =>
    rw [run_bind_of_ok h]
    rfl

end Session

namespace Query

variable {C : Type} [Collection C] (q : Query C) (make : PageMaker C)

/-! ## Pages made in any way -/

omit [Collection C] in
/-- The page stage. -/
def paginateBy (given : Value) (collection : Selection C) : Session (Selection C) := do
  let (records, details) ← Session.ofTraced (make given collection)
  Session.remember details
  return records

/-- A single stage. -/
def stageBy (s : Stage) (given : Value) (collection : Selection C) : Session (Selection C) :=
  match s with
  | .paginate => paginateBy make given collection
  | s => q.stage s given collection

/-- A stage as part of all of them. -/
def runStageBy (collection : Selection C) (s : Stage) : Session (Selection C) := do
  Session.ofTraced (Traced.log (.runningStage q.name s.name))
  q.stageBy make s .null collection

/-- All stages one after the other. -/
def resultsBy : Session (Selection C) :=
  q.settings.pipeline.foldlM (q.runStageBy make) (.live q.collection)

/-- Any operation. -/
def serveBy : Operation C → Session (Outcome C)
  | .results => do return .selection (← q.resultsBy make)
  | .stage s given input => do return .selection (← q.stageBy make s given input)
  | operation => q.serve operation

theorem stageBy_page : q.stageBy q.page = q.stage := by
  funext s
  cases s <;> rfl

/-- **The paginator of the table** is a way to make pages. -/
theorem serveBy_page (operation : Operation C) : q.serveBy q.page operation = q.serve operation := by
  have hstage : q.runStageBy q.page = q.runStage := by
    funext collection s
    unfold runStageBy runStage
    rw [stageBy_page]
  cases operation with
  | results =>
    unfold serveBy serve resultsBy results
    rw [hstage]
  | stage s given input =>
    unfold serveBy serve
    rw [stageBy_page]
  | find id => rfl
  | record => rfl
  | findBy criteria => rfl

/-! ## Completed pages -/

/-- What a stage comes to, whatever is remembered: the collection after it and the details of its
page, if it makes one. -/
def outcomeBy (s : Stage) (given : Value) (collection : Selection C) :
    Except QueryError (Selection C × Option Details) :=
  match s with
  | .paginate => (make given collection).result.map fun page => (page.1, some page.2)
  | .sort => (q.sort given collection).result.map fun after => (after, none)
  | .include => (q.includes given collection).result.map fun after => (after, none)
  | .filter => (q.filter given collection).result.map fun after => (after, none)

/-- The details of the page that a stage completes. -/
def pagesOfStage (s : Stage) (given : Value) (collection : Selection C) : List Details :=
  match q.outcomeBy make s given collection with
  | .ok (_, details) => details.toList
  | .error _ => []

/-- The details of the pages that are completed while stages run one after the other, up to the
first that fails. -/
def pagesOfStages : List Stage → Selection C → List Details
  | [], _ => []
  | s :: rest, collection =>
    match q.outcomeBy make s .null collection with
    | .ok (after, details) => details.toList ++ pagesOfStages rest after
    | .error _ => []

/-- The details of the pages that an operation completes, in order. -/
def pagesOf : Operation C → List Details
  | .results => q.pagesOfStages make q.settings.pipeline (.live q.collection)
  | .stage s given input => q.pagesOfStage make s given input
  | .find _ | .record | .findBy _ => []

variable {q make} {s : Stage} {given : Value} {collection after : Selection C}
  {before : Option Details} {e : QueryError}

/-- Only the page stage makes a page. -/
theorem outcomeBy_of_ne (hs : s ≠ .paginate) {details : Option Details}
    (h : q.outcomeBy make s given collection = .ok (after, details)) : details = none := by
  have hnone {x : Except QueryError (Selection C)}
      (hx : (x.map fun after => (after, (none : Option Details))) = .ok (after, details)) :
      details = none := by
    cases x <;> cases hx
    rfl
  match s, hs with
  | .sort, _ | .include, _ | .filter, _ => exact hnone h
  | .paginate, hs => exact absurd rfl hs

theorem pagesOfStage_of_ne (hs : s ≠ .paginate) : q.pagesOfStage make s given collection = [] := by
  unfold pagesOfStage
  split
  · next houtcome =>
    rw [outcomeBy_of_ne hs houtcome]
    rfl
  · rfl

/-- **One stage** comes to its outcome, and what it completes replaces what was remembered. -/
theorem stageBy_eq :
    (q.stageBy make s given collection before).1.result =
        (q.outcomeBy make s given collection).map Prod.fst ∧
      (q.stageBy make s given collection before).2 =
        ((q.outcomeBy make s given collection).toOption.bind Prod.snd).or before := by
  have hplain (t : Traced (Selection C)) :
      (Session.ofTraced t before).1.result =
          (t.result.map fun after => (after, (none : Option Details))).map Prod.fst ∧
        (Session.ofTraced t before).2 =
          ((t.result.map fun after => (after, (none : Option Details))).toOption.bind
            Prod.snd).or before := by
    rw [Session.run_ofTraced]
    cases t.result <;> exact ⟨rfl, rfl⟩
  match s with
  | .sort | .include | .filter => exact hplain _
  | .paginate =>
    show (paginateBy make given collection before).1.result = _ ∧
      (paginateBy make given collection before).2 = _
    have hfirst : (Session.ofTraced (make given collection) before).1.result =
        (make given collection).result := rfl
    unfold paginateBy outcomeBy
    cases hpage : (make given collection).result with
    | error e =>
      rw [Session.run_bind_of_error (hfirst.trans hpage)]
      exact ⟨rfl, rfl⟩
    | ok page =>
      rw [Session.run_bind_of_ok (hfirst.trans hpage)]
      exact ⟨rfl, rfl⟩

theorem remembered_stageBy :
    (q.stageBy make s given collection before).2 =
      (q.pagesOfStage make s given collection).getLast?.or before := by
  rw [stageBy_eq.2]
  unfold pagesOfStage
  cases q.outcomeBy make s given collection with
  | error e => rfl
  | ok outcome =>
    obtain ⟨after, details⟩ := outcome
    cases details <;> rfl

/-- As part of all stages, a stage does the same. -/
theorem runStageBy_eq (q : Query C) (make : PageMaker C) (collection : Selection C) (s : Stage)
    (before : Option Details) :
    (q.runStageBy make collection s before).1.result =
        (q.outcomeBy make s .null collection).map Prod.fst ∧
      (q.runStageBy make collection s before).2 =
        ((q.outcomeBy make s .null collection).toOption.bind Prod.snd).or before := by
  unfold runStageBy
  rw [Session.run_bind_of_ok (a := ()) rfl]
  exact stageBy_eq

/-- **Stages one after the other** leave the details of the last page that they complete. -/
theorem remembered_stages (stages : List Stage) (collection : Selection C)
    (before : Option Details) :
    ((stages.foldlM (q.runStageBy make) collection) before).2 =
      (q.pagesOfStages make stages collection).getLast?.or before := by
  induction stages generalizing collection before with
  | nil => rfl
  | cons s rest ih =>
    obtain ⟨hresult, hremembered⟩ := runStageBy_eq q make collection s before
    rw [List.foldlM_cons, pagesOfStages]
    cases houtcome : q.outcomeBy make s .null collection with
    | error e =>
      rw [houtcome] at hresult hremembered
      rw [Session.run_bind_of_error hresult]
      exact hremembered
    | ok outcome =>
      obtain ⟨after, details⟩ := outcome
      rw [houtcome] at hresult hremembered
      rw [Session.run_bind_of_ok hresult]
      show (rest.foldlM (q.runStageBy make) after (q.runStageBy make collection s before).2).2 = _
      rw [ih, hremembered, List.getLast?_append, Option.or_assoc]
      cases details <;> rfl

/-- **One operation** leaves the details of the last page that it completes. -/
theorem remembered_serveBy (operation : Operation C) (before : Option Details) :
    (q.serveBy make operation before).2 = (q.pagesOf make operation).getLast?.or before := by
  cases operation with
  | results =>
    unfold serveBy
    rw [Session.remembered_bind_pure]
    exact remembered_stages _ _ _
  | stage s given input =>
    unfold serveBy
    rw [Session.remembered_bind_pure]
    exact remembered_stageBy
  | find id => exact Session.remembered_bind_pure _ _ _
  | record => exact Session.remembered_bind_pure _ _ _
  | findBy criteria => exact Session.remembered_bind_pure _ _ _

/-- The details after operations one after the other. -/
def rememberedAfter (q : Query C) (make : PageMaker C) (operations : List (Operation C))
    (before : Option Details) : Option Details :=
  operations.foldl (fun details operation => (q.serveBy make operation details).2) before

/-- **Operations one after the other** leave the details of the last page that any of them
completes. -/
theorem rememberedAfter_eq (operations : List (Operation C)) (before : Option Details) :
    q.rememberedAfter make operations before =
      (operations.flatMap (q.pagesOf make)).getLast?.or before := by
  unfold rememberedAfter
  induction operations generalizing before with
  | nil => rfl
  | cons operation rest ih =>
    rw [List.foldl_cons, ih, remembered_serveBy, List.flatMap_cons, List.getLast?_append,
      Option.or_assoc]

/-! ## All stages together -/

theorem pagesOfStages_of_not_mem {stages : List Stage} (h : .paginate ∉ stages)
    (collection : Selection C) : q.pagesOfStages make stages collection = [] := by
  induction stages generalizing collection with
  | nil => rfl
  | cons s rest ih =>
    rw [List.mem_cons, not_or] at h
    obtain ⟨hs, hrest⟩ := h
    rw [pagesOfStages]
    cases houtcome : q.outcomeBy make s .null collection with
    | error e => rfl
    | ok outcome =>
      obtain ⟨after, details⟩ := outcome
      obtain rfl := outcomeBy_of_ne (Ne.symm hs) houtcome
      exact ih hrest after

/-- The stages ahead of paging complete no page. What is completed after them depends on what they
come to. -/
theorem pagesOfStages_append {earlier : List Stage} (h : .paginate ∉ earlier) (later : List Stage)
    (collection : Selection C) (before : Option Details) :
    q.pagesOfStages make (earlier ++ later) collection =
      match (earlier.foldlM (q.runStageBy make) collection before).1.result with
      | .ok reached => q.pagesOfStages make later reached
      | .error _ => [] := by
  induction earlier generalizing collection before with
  | nil => rfl
  | cons s rest ih =>
    rw [List.mem_cons, not_or] at h
    obtain ⟨hs, hrest⟩ := h
    have hresult := (runStageBy_eq q make collection s before).1
    rw [List.cons_append, pagesOfStages, List.foldlM_cons]
    cases houtcome : q.outcomeBy make s .null collection with
    | error e =>
      rw [houtcome] at hresult
      rw [Session.run_bind_of_error hresult]
    | ok outcome =>
      obtain ⟨after, details⟩ := outcome
      obtain rfl := outcomeBy_of_ne (Ne.symm hs) houtcome
      rw [houtcome] at hresult
      rw [Session.run_bind_of_ok hresult]
      exact ih hrest after _

/-- Stages that may be run are paging and, before and after it, others. -/
theorem not_mem_of_pipeline {settings : Settings} {earlier later : List Stage}
    (h : settings.pipeline = earlier ++ .paginate :: later) :
    .paginate ∉ earlier ∧ .paginate ∉ later := by
  have hperm : (earlier ++ Stage.paginate :: later).Perm Stage.all := by
    rw [← h]
    exact List.isPerm_iff.mp settings.pipeline_isPerm
  have hnodup := hperm.nodup_iff.mpr (by decide : Stage.all.Nodup)
  rw [List.nodup_append, List.nodup_cons] at hnodup
  refine ⟨fun hmem => ?_, hnodup.2.1.1⟩
  exact hnodup.2.2 _ hmem _ List.mem_cons_self rfl

/-- **All stages together** complete the page that is made of what the stages ahead of paging come
to, whatever the stages after it do. -/
theorem pagesOf_results {earlier later : List Stage}
    (h : q.settings.pipeline = earlier ++ .paginate :: later) (before : Option Details) :
    q.pagesOf make .results =
      match (earlier.foldlM (q.runStageBy make) (.live q.collection) before).1.result with
      | .ok reached => q.pagesOfStage make .paginate .null reached
      | .error _ => [] := by
  obtain ⟨hearlier, hlater⟩ := not_mem_of_pipeline h
  unfold pagesOf
  rw [h, pagesOfStages_append hearlier _ _ before]
  cases (earlier.foldlM (q.runStageBy make) (.live q.collection) before).1.result with
  | error e => rfl
  | ok reached =>
    simp only
    unfold pagesOfStage
    rw [pagesOfStages]
    cases q.outcomeBy make .paginate .null reached with
    | error e => rfl
    | ok outcome =>
      simp only
      rw [pagesOfStages_of_not_mem hlater, List.append_nil]

end Query

/-! ## Details as maps -/

/-- A value that is a map. -/
def Value.IsMap (v : Value) : Prop := ∃ entries, v = .map entries

namespace Traced

variable {α β : Type} {P : α → Prop} {Q : β → Prop}

/-- Whatever the result is, if there is one, it satisfies `P`. -/
def Gives (P : α → Prop) (t : Traced α) : Prop := ∀ a, t.result = .ok a → P a

theorem Gives.pure {a : α} (h : P a) : (pure a : Traced α).Gives P := by
  intro b hb
  cases hb
  exact h

theorem Gives.fail (e : QueryError) : (fail e : Traced α).Gives P := by
  intro a ha
  cases ha

/-- The result of a sequence is that of its last part. -/
theorem Gives.bind {x : Traced α} {f : α → Traced β} (h : ∀ a, (f a).Gives Q) :
    (x >>= f).Gives Q := by
  intro b hb
  obtain ⟨a, -, hf⟩ := result_bind_eq_ok_iff.mp hb
  exact h a b hf

/-- Where it matters what the first part comes to. -/
theorem Gives.andThen {x : Traced α} {f : α → Traced β} (hx : x.Gives P)
    (h : ∀ a, P a → (f a).Gives Q) : (x >>= f).Gives Q := by
  intro b hb
  obtain ⟨a, ha, hf⟩ := result_bind_eq_ok_iff.mp hb
  exact h a (hx a ha) b hf

end Traced

namespace Pagination

open Traced

variable {C : Type} [Collection C] {p : Pager}

theorem gives_beginPage (entries : List (Value × Value)) (collection : Selection C) :
    (p.beginPage entries collection).Gives fun begun => begun.1.toValue.IsMap := by
  unfold Pager.beginPage
  refine .bind fun f => .bind fun records => .bind fun pages => ?_
  simp only
  split
  · exact .fail _
  · exact .bind fun offset => .bind fun _ => .bind fun page => .bind fun links => .pure ⟨_, rfl⟩

theorem gives_beginFlat (entries : List (Value × Value)) (collection : Selection C) :
    (p.beginFlat entries collection).Gives fun begun => begun.1.toValue.IsMap := by
  unfold Pager.beginFlat
  exact .bind fun f => .bind fun records => .bind fun pages => .bind fun offset =>
    .bind fun page => .pure ⟨_, rfl⟩

theorem gives_beginCountless (entries : List (Value × Value)) (collection : Selection C) :
    (p.beginCountless entries collection).Gives fun begun => begun.1.toValue.IsMap := by
  unfold Pager.beginCountless
  refine .bind fun f => .bind fun offset => .bind fun _ => .bind fun opened => .bind fun size =>
    .bind fun limited => .bind fun rows => .bind fun links => ?_
  simp only
  split
  · exact .bind fun _ => .pure ⟨_, rfl⟩
  · exact .pure ⟨_, rfl⟩

/-- **Details are maps** whatever paginator reports them, if one of a program's own reports such. -/
theorem gives_paginate (hcustom : ∀ report, p.kind = .custom report → report.IsMap)
    (collection : Selection C) :
    (p.paginate collection).Gives fun page => page.2.toValue.IsMap := by
  have hbegin : (p.begin collection).Gives fun begun => begun.1.toValue.IsMap := by
    unfold Pager.begin
    split
    · exact .fail _
    · next report hkind => exact .pure (hcustom report hkind)
    · exact .bind fun k => .pure ⟨_, rfl⟩
    · exact .bind fun entries => (gives_beginPage entries collection).andThen fun _ h => .pure h
    · exact .bind fun entries => (gives_beginFlat entries collection).andThen fun _ h => .pure h
    · exact .bind fun entries => (gives_beginCountless entries collection).andThen fun _ h => .pure h
  exact hbegin.andThen fun begun h => .bind fun records => .pure h

/-- What goes into a response: nothing of empty details, the entries `meta` and `links` of details
that have the former, and else the details as a whole under `meta`. -/
def responseEntries (entries : List (Value × Value)) : List (Value × Value) :=
  if entries = [] then []
  else if ∃ e ∈ entries, e.1.text? = some "meta" then
    entries.filter fun e => e.1.text? = some "meta" ∨ e.1.text? = some "links"
  else [(.str "meta", .map entries)]

/-- Details that are a map always make a response. -/
theorem responseOptions_map (entries : List (Value × Value)) :
    responseOptions (.map entries) = .ok (.map (responseEntries entries)) := by
  have hmeta : (entries.any fun e => Value.same (.str "meta") e.1) =
      decide (∃ e ∈ entries, e.1.text? = some "meta") := by
    rw [Bool.eq_iff_iff, List.any_eq_true, decide_eq_true_iff]
    exact exists_congr fun e => and_congr_right fun _ => Value.str_same_iff e.1 "meta"
  have hkeys : (fun e : Value × Value => isResponseKey e.1) =
      fun e => decide (e.1.text? = some "meta" ∨ e.1.text? = some "links") := by
    funext e
    rw [Bool.eq_iff_iff]
    simp [isResponseKey]
  unfold responseOptions responseEntries
  by_cases hempty : entries = []
  · simp [hempty, Value.isTruthy]
  · have htruthy : (Value.map entries).isTruthy = true := by simpa [Value.isTruthy] using hempty
    have hcontains : (Value.map entries).contains? (.str "meta") =
        some (decide (∃ e ∈ entries, e.1.text? = some "meta")) := by
      rw [← hmeta]
      rfl
    rw [htruthy, hcontains, if_neg hempty]
    by_cases hsplit : ∃ e ∈ entries, e.1.text? = some "meta"
    · rw [if_pos hsplit, decide_eq_true hsplit, ← hkeys]
      rfl
    · rw [if_neg hsplit, decide_eq_false hsplit]
      rfl

end Pagination

namespace Query

variable {C : Type} [Collection C] {q : Query C} {make : PageMaker C}

omit [Collection C] in
/-- A way to make pages whose details are maps. -/
def ReportsMaps (make : PageMaker C) : Prop :=
  ∀ given collection, (make given collection).Gives fun page => page.2.toValue.IsMap

/-- The paginator of the table is such a way, if a report of a program's own is a map. -/
theorem reportsMaps_page (hcustom : ∀ report, q.rules.paginator = .custom report → report.IsMap) :
    ReportsMaps q.page := by
  intro given collection
  unfold page
  refine .bind fun params => .andThen (P := fun p : Pager => p.kind = q.rules.paginator) ?_ ?_
  · intro p hp
    unfold Pager.make at hp
    split at hp
    · cases hp
    · cases hp
      rfl
  · intro p hp
    exact gives_paginate (fun report hreport => hcustom report (hp.symm.trans hreport)) collection

theorem isMap_of_outcomeBy (h : ReportsMaps make) {s : Stage} {given : Value}
    {collection after : Selection C} {details : Details}
    (houtcome : q.outcomeBy make s given collection = .ok (after, some details)) :
    details.toValue.IsMap := by
  by_cases hs : s = .paginate
  · subst hs
    unfold outcomeBy at houtcome
    cases hpage : (make given collection).result with
    | error e =>
      rw [hpage] at houtcome
      cases houtcome
    | ok page =>
      rw [hpage] at houtcome
      cases houtcome
      exact h given collection page hpage
  · cases outcomeBy_of_ne hs houtcome

theorem isMap_of_mem_pagesOfStages (h : ReportsMaps make) {stages : List Stage}
    {collection : Selection C} {details : Details}
    (hmem : details ∈ q.pagesOfStages make stages collection) : details.toValue.IsMap := by
  induction stages generalizing collection with
  | nil => cases hmem
  | cons s rest ih =>
    rw [pagesOfStages] at hmem
    split at hmem
    · next after completed houtcome =>
      rcases List.mem_append.mp hmem with hmem | hmem
      · obtain rfl := Option.mem_toList.mp hmem
        exact isMap_of_outcomeBy h houtcome
      · exact ih hmem
    · cases hmem

/-- Of such a way, the details of every page that an operation completes are a map. -/
theorem isMap_of_mem_pagesOf (h : ReportsMaps make) {operation : Operation C} {details : Details}
    (hmem : details ∈ q.pagesOf make operation) : details.toValue.IsMap := by
  cases operation with
  | results => exact isMap_of_mem_pagesOfStages h hmem
  | stage s given input =>
    unfold pagesOf pagesOfStage at hmem
    simp only at hmem
    split at hmem
    · next houtcome =>
      obtain rfl := Option.mem_toList.mp hmem
      exact isMap_of_outcomeBy h houtcome
    · cases hmem
  | find id => cases hmem
  | record => cases hmem
  | findBy criteria => cases hmem

/-! ## The details after any operations -/

/-- **The remembered details** are those of the last completed page, whatever way pages are made,
that of the rule table included.

A single stage that is not paging, or that fails, leaves the details as they are, and so does
every look-up. All stages together leave the details of their page if they come so far, also where
a later stage fails, and else what was there before. After any operations in a row, the details
are those of the last page that any of them completed, and nothing where there is none. If pages
have maps for details, a response tells of these details and of nothing else. -/
theorem details_of_operations (q : Query C) :
    (∀ operation, q.serveBy q.page operation = q.serve operation) ∧
    ((∀ report, q.rules.paginator = .custom report → report.IsMap) → ReportsMaps q.page) ∧
    ∀ make : PageMaker C,
      (∀ s given input before,
        (q.serveBy make (.stage s given input) before).2 =
          match s, (make given input).result with
          | .paginate, .ok (_, details) => some details
          | _, _ => before) ∧
      (∀ before, (∀ id, (q.serveBy make (.find id) before).2 = before) ∧
        (q.serveBy make .record before).2 = before ∧
        ∀ criteria, (q.serveBy make (.findBy criteria) before).2 = before) ∧
      (∀ earlier later before, q.settings.pipeline = earlier ++ .paginate :: later →
        (q.serveBy make .results before).2 =
          match (earlier.foldlM (q.runStageBy make) (.live q.collection) before).1.result with
          | .error _ => before
          | .ok reached =>
            match (make .null reached).result with
            | .error _ => before
            | .ok (_, details) => some details) ∧
      ∀ operations,
        q.rememberedAfter make operations none =
          (operations.flatMap (q.pagesOf make)).getLast? ∧
        (ReportsMaps make →
          ∃ entries, reportOf (q.rememberedAfter make operations none) = .map entries ∧
            responseOptions (reportOf (q.rememberedAfter make operations none)) =
              .ok (.map (responseEntries entries))) := by
  refine ⟨q.serveBy_page, reportsMaps_page, fun make => ⟨?stage, ?lookup, ?results, ?operations⟩⟩
  case stage =>
    intro s given input before
    rw [remembered_serveBy]
    show (q.pagesOfStage make s given input).getLast?.or before = _
    match s with
    | .sort | .include | .filter => rw [pagesOfStage_of_ne (by decide)]; rfl
    | .paginate =>
      unfold pagesOfStage outcomeBy
      cases (make given input).result <;> rfl
  case lookup =>
    intro before
    exact ⟨fun id => remembered_serveBy _ _, remembered_serveBy _ _,
      fun criteria => remembered_serveBy _ _⟩
  case results =>
    intro earlier later before hsplit
    rw [remembered_serveBy, pagesOf_results hsplit before]
    cases (earlier.foldlM (q.runStageBy make) (.live q.collection) before).1.result with
    | error e => rfl
    | ok reached =>
      simp only
      unfold pagesOfStage outcomeBy
      cases (make .null reached).result <;> rfl
  case operations =>
    intro operations
    have hlast : q.rememberedAfter make operations none =
        (operations.flatMap (q.pagesOf make)).getLast? := by
      rw [rememberedAfter_eq, Option.or_none]
    refine ⟨hlast, fun hmaps => ?_⟩
    have hmap : (reportOf (q.rememberedAfter make operations none)).IsMap := by
      rw [hlast]
      cases hdetails : (operations.flatMap (q.pagesOf make)).getLast? with
      | none => exact ⟨[], rfl⟩
      | some details =>
        obtain ⟨operation, -, hmem⟩ :=
          List.mem_flatMap.mp (List.mem_of_getLast? hdetails)
        exact isMap_of_mem_pagesOf hmaps hmem
    obtain ⟨entries, hentries⟩ := hmap
    exact ⟨entries, hentries, by rw [hentries, responseOptions_map]⟩

/-- People in pages of two. They are filtered after they are paged, and by what is no map. -/
def filteredLast : Query Memory where
  collection := { items := [1, 2, 3].map fun id => .record [("id", .int id)] }
  params := .ofFields [("filter", .str "Doe"), ("page", .ofFields [("size", .int 2)])]
  rules := { filters := [⟨"name", .equality "name", "name", false, []⟩] }
  settings :=
    { Settings.default with
      pipeline := [.sort, .include, .paginate, .filter]
      pipeline_isPerm := by decide }
  base := none
  name := "people"

/-- The details of the first page of them. -/
def pageOfFilteredLast : Details :=
  .numbered ⟨1, .whole 2, 0, .whole 100, some ⟨3, 2⟩⟩
    { self := "?filter=Doe&page[size]=2&page[number]=1"
      first := "?filter=Doe&page[size]=2&page[number]=1"
      last := some "?filter=Doe&page[size]=2&page[number]=2"
      previous := none
      next := some "?filter=Doe&page[size]=2&page[number]=2" }

/-- All stages together fail, but not before the first page is made. A page out of range and
a look-up that fails as well leave its details as they are. -/
theorem details_of_filteredLast :
    ReportsMaps filteredLast.page ∧
    (∃ e, (filteredLast.serve .results none).1.result = .error e) ∧
    (filteredLast.serve .results none).2 = some pageOfFilteredLast ∧
    filteredLast.rememberedAfter filteredLast.page
      [.results, .stage .paginate (.ofFields [("number", .int 9)]) (.live filteredLast.collection),
        .record] none = some pageOfFilteredLast ∧
    responseOptions pageOfFilteredLast.toValue = .ok pageOfFilteredLast.toValue := by
  obtain ⟨hserve, hmaps, hlaws⟩ := details_of_operations filteredLast
  have hreports : ReportsMaps filteredLast.page := hmaps fun report hreport => by cases hreport
  obtain ⟨-, -, hresults, hoperations⟩ := hlaws filteredLast.page
  obtain ⟨hlast, hresponse⟩ := hoperations
    [.results, .stage .paginate (.ofFields [("number", .int 9)]) (.live filteredLast.collection),
      .record]
  have hfirst : (filteredLast.serve .results none).2 = some pageOfFilteredLast := by
    rw [← hserve, hresults [.sort, .include] [.filter] none rfl]
    with_unfolding_all rfl
  have hremembered : filteredLast.rememberedAfter filteredLast.page
      [.results, .stage .paginate (.ofFields [("number", .int 9)]) (.live filteredLast.collection),
        .record] none = some pageOfFilteredLast := by
    rw [hlast]
    with_unfolding_all rfl
  obtain ⟨entries, hentries, hoptions⟩ := hresponse hreports
  rw [hremembered] at hentries hoptions
  refine ⟨hreports, ⟨_, by with_unfolding_all rfl⟩, hfirst, hremembered, hoptions.trans ?_⟩
  obtain rfl := Value.map.inj hentries
  rfl

end Query

end ResourceQuery
