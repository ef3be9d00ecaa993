import ResourceQuery.Proofs.Pagination.LinkText
import ResourceQuery.Proofs.Sql.AnsweredCalls
import ResourceQuery.Proofs.Sql.LoadedPaths

/-!
# Names that only a request chooses

The names in a rule table are checked by whoever declares it. A request adds two more that reach the
database unchecked: the relationships that it includes, and the column at which a page starts. If
the table's own names are attributes of the model, a query blames its configuration exactly where
one of these two is wrong.

Headlines:
* **`QueryRules.Resolves`**: tables whose names are attributes of a model.
* **`blameless_sort`**, **`blameless_filter`**, **`blameless_includeRequested`**,
  **`blameless_paginate`**: the stages.
* **`MisnamesRelationship`**, **`MisnamesColumn`**, **`Query.Misnames`**: requests whose names are
  wrong for a stage.
* **`Query.blameless_runStage`**, **`Query.result_runStage_of_misnames`**: one stage.
* **`Query.runStages_blame_iff`**, **`Query.results_blame_iff`**: which requests fail with an error
  of configuration.
-/

namespace ResourceQuery

open Pagination Sql

variable {E : Type} [Schema E] {root : E} {c : Selection (TableQuery E)}

/-! ## Sorts and filters -/

/-- A table of rules that name no strategy of their own, whose names are attributes of a model. A
filter may have conditions, if these do not blame the configuration. -/
structure QueryRules.Resolves (root : E) (rules : QueryRules (TableQuery E)) : Prop
    extends rules.SortsUsually where
  filters : ∀ r ∈ rules.filters,
    r.strategy = .equality r.name ∧ (Schema.attributeAt? root r.name).isSome
  guards : ∀ r ∈ rules.filters, ∀ g ∈ r.guards, ∀ query,
    Blameless (fun _ => True)
      (g.passes query (none : Option (StrategyObject (TableQuery E)))).result
  sortNames : ∀ name s, rules.sorts.get? name = some s → (Schema.attributeAt? root name).isSome
  uniqueSort : ∀ clause ∈ rules.uniqueSort, (Schema.attributeAt? root clause.name).isSome
  defaultNames : ∀ clauses, rules.defaultSort = some (.clauses clauses) →
    ∀ clause ∈ clauses, (Schema.attributeAt? root clause.name).isSome

section

variable {rules : QueryRules (TableQuery E)} {settings : Settings}

theorem blameless_dropOrder (hc : IsAt root c) :
    Blameless (IsAt root) (QueryRules.dropOrder settings c).result := by
  unfold QueryRules.dropOrder
  split
  · exact (answered_reorderClauses (List.forall_mem_nil _)).perform hc
  · exact .ok hc

/-- A permitted attribute is one of the table, which the model has. -/
theorem blameless_sortBy (h : rules.Resolves root) {param : SortParam}
    (hpermitted : rules.isSortPermitted param.name = true) (hc : IsAt root c) :
    Blameless (IsAt root) (rules.sortBy c param).result := by
  unfold QueryRules.sortBy
  rw [Traced.result_bind_of_ok (Traced.result_log _)]
  unfold QueryRules.isSortPermitted at hpermitted
  unfold QueryRules.findSort at hpermitted ⊢
  cases hstatic : rules.sorts.get? param.name with
  | none =>
    rw [hstatic, h.dynamicSorts] at hpermitted
    cases hpermitted
  | some strategy =>
    have hname := h.sortNames param.name strategy hstatic
    rw [h.sorts param.name strategy hstatic]
    have hanswered : Answered root (.orderByClauses [⟨param.name, param.direction⟩]) :=
      answered_orderByClauses fun clause hclause => by rwa [List.mem_singleton.mp hclause]
    exact hanswered.perform hc

theorem blameless_requestedOrder (h : rules.Resolves root) {params : List SortParam}
    (hpermitted : ∀ p ∈ params, rules.isSortPermitted p.name = true) (hc : IsAt root c) :
    Blameless (IsAt root) (rules.requestedOrder settings params c).result := by
  unfold QueryRules.requestedOrder
  split
  · exact .ok hc
  · next usual husual =>
    obtain ⟨clauses, rfl⟩ := h.defaultSort usual husual
    refine (blameless_dropOrder hc).andThen fun c hc => ?_
    rw [Traced.result_bind_of_ok (Traced.result_log _)]
    exact (answered_orderByClauses (h.defaultNames clauses husual)).perform hc
  · exact (blameless_dropOrder hc).andThen fun c hc =>
      Blameless.run (fun p hp c hc => blameless_sortBy h (hpermitted p hp) hc) hc

/-- **The sort stage** blames no declaration. -/
theorem blameless_sort (h : rules.Resolves root) (raw : Value) (hc : IsAt root c) :
    Blameless (IsAt root) (rules.sort settings raw c).result := by
  unfold QueryRules.sort
  refine (blameless_readAll raw).check fun params _ => ?_
  refine (blameless_ensurePermitted rules params).check fun _ hpermitted => ?_
  refine (blameless_requestedOrder h hpermitted hc).andThen fun c hc => ?_
  rw [Traced.result_bind_of_ok (Traced.result_log _)]
  exact (answered_orderByClauses h.uniqueSort).perform hc

theorem blameless_allPass {query : Value} {object : Option (StrategyObject (TableQuery E))}
    {guards : List Guard}
    (h : ∀ g ∈ guards, Blameless (fun _ => True) (g.passes query object).result) :
    Blameless (fun _ => True) (FilterRule.allPass query object guards).result := by
  induction guards with
  | nil => exact .ok trivial
  | cons g rest ih =>
    rw [List.forall_mem_cons] at h
    refine h.1.andThen fun answer _ => ?_
    cases answer with
    | true => exact ih h.2
    | false => exact .ok trivial

/-- A filter whose attribute the model has narrows the collection, or leaves it. -/
theorem blameless_filterRule (h : rules.Resolves root) {r : FilterRule (TableQuery E)}
    (hr : r ∈ rules.filters) (entries : List (Value × Value)) (hc : IsAt root c) :
    Blameless (IsAt root) (r.run entries c).result := by
  obtain ⟨hstrategy, hname⟩ := h.filters r hr
  have hobject : r.object? (r.query entries) c = .ok none := by
    rw [FilterRule.object?, hstrategy, Strategy.equality]
  have henabled :
      Blameless (fun _ => True) (r.isEnabled entries (r.query entries) none).result := by
    unfold FilterRule.isEnabled
    split
    · exact .ok trivial
    · exact blameless_allPass fun g hg => h.guards r hr g hg _
  unfold FilterRule.run
  simp only
  rw [Traced.result_bind_of_ok (a := none) hobject]
  refine henabled.andThen fun enabled _ => ?_
  cases enabled with
  | true =>
    simp only [if_true]
    rw [Traced.result_bind_of_ok (Traced.result_log _), hstrategy]
    exact (answered_equation hname _).perform hc
  | false => exact .ok hc

/-- **The filter stage** blames no declaration. -/
theorem blameless_filter (h : rules.Resolves root) (raw : Value) (hc : IsAt root c) :
    Blameless (IsAt root) (rules.filter raw c).result :=
  Blameless.run (fun _ hr _ hc =>
    (blameless_filterEntries raw).check fun entries _ =>
      blameless_filterRule h hr entries hc) hc

end

/-! ## Includes -/

/-- An include parameter with a path that does not go from relationship to relationship. -/
def MisnamesRelationship (root : E) (raw : Value) : Prop :=
  ∃ text, raw.spelling? = some text ∧
    ∃ token ∈ Request.tokens text, ¬ IsChain root (IncludeTree.chainOf token)

theorem blameless_specs (raw : Value) : Blameless (fun _ => True) (IncludeTree.specs raw) :=
  Blameless.map (P := fun _ => True) ((blameless_tokenList raw).map fun _ _ => trivial)
    fun _ _ => trivial

theorem answered_includeRelated {specs : List Value}
    (h : Blameless (fun _ => True) (loadPathsOf root [] specs)) :
    Answered root (.includeRelated specs) := by
  rintro s ⟨rfl, hgrown⟩
  exact h.bind fun _ _ => .ok ⟨rfl, hgrown⟩

/-- **The include stage** blames no declaration, if all that it names are relationships or there is
no collection left to load them for. -/
theorem blameless_includeRequested {raw : Value}
    (hraw : ∀ t, c = .live t → ¬ MisnamesRelationship root raw) (hc : IsAt root c) :
    Blameless (IsAt root) (includeRequested raw c).result := by
  unfold includeRequested
  refine (blameless_specs raw).with_eq.check fun specs hspecs => ?_
  split
  · exact .ok hc
  · next hempty =>
    rw [Traced.result_bind_of_ok (Traced.result_log _)]
    cases c with
    | given v => exact blameless_given _ v
    | live t =>
      refine (answered_includeRelated ?_).perform hc
      have hne : specs ≠ [] := fun hnil => hempty (List.isEmpty_iff.mpr hnil)
      obtain ⟨text, htext⟩ := IncludeTree.exists_spelling?_of_specs hspecs.2 hne
      cases (IncludeTree.specs_of_spelling? htext).symm.trans hspecs.2
      have hchains : ∀ token ∈ Request.tokens text, IsChain root (IncludeTree.chainOf token) :=
        fun token htoken => not_not.mp fun hnot => hraw t rfl ⟨text, htext, token, htoken, hnot⟩
      rw [loadPathsOf_forest hchains]
      exact .ok trivial

/-- A name that is no relationship is blamed on the configuration. -/
theorem result_includeRequested_of_misnames {raw : Value} (hraw : MisnamesRelationship root raw)
    {t : TableQuery E} (ht : t.statement.root = root) :
    ∃ why, (includeRequested raw (Selection.live t)).result = .error (.misconfigured why) := by
  subst ht
  obtain ⟨text, htext, token, htoken, hbroken⟩ := hraw
  obtain ⟨-, -, found, name, -, hload⟩ := loadPathsOf_forest_error ⟨token, htoken, hbroken⟩
  have hempty : ¬ (IncludeTree.specsOf (IncludeTree.forest text)).isEmpty = true := by
    intro hempty
    rw [List.isEmpty_iff.mp hempty] at hload
    cases hload
  refine ⟨.notRelationship (Schema.name found) name, ?_⟩
  unfold includeRequested
  rw [IncludeTree.specs_of_spelling? htext]
  refine (Traced.result_bind_of_ok (x := Traced.ofExcept _) rfl _).trans ?_
  rw [if_neg hempty, Traced.result_bind_of_ok (Traced.result_log _)]
  refine Traced.result_bind_of_error (x := Traced.ofExcept _) ?_ _
  show t.perform _ = _
  rw [TableQuery.perform, Statement.perform, hload]
  rfl

/-! ## Pages -/

/-- A `page` parameter that starts at a column which the model does not have. -/
def MisnamesColumn (root : E) (entries : List (Value × Value)) : Prop :=
  ∃ f column, KeysetFields.read (pageEntries entries) = .ok f ∧ f.column = some column ∧
    column ≠ "" ∧ Schema.attributeAt? root column = none

theorem blameless_inRange {α : Type} (found : Option α) :
    Blameless (fun _ => True) (inRange found) := by
  cases found with
  | some a => exact .ok trivial
  | none => exact .error rfl

theorem blameless_pageFields (entries : List (Value × Value)) :
    Blameless (fun _ => True) (PageFields.read entries) := by
  unfold PageFields.read
  simp only
  split
  · exact .ok trivial
  · exact .error rfl

theorem blameless_keysetFields (entries : List (Value × Value)) :
    Blameless (fun _ => True) (KeysetFields.read entries) := by
  unfold KeysetFields.read
  simp only
  split
  · exact .ok trivial
  · exact .error rfl

theorem blameless_ensureWritable (number : Int) :
    Blameless (fun _ => True) (Pager.ensureWritable number) := by
  unfold Pager.ensureWritable
  split
  · exact .ok trivial
  · exact .error rfl

/-- A text that links cannot repeat is the request's. -/
theorem blameless_linksOf (base : Option String) (entries : List (Value × Value)) (number : Int)
    (last : Option Int) (hasNext : Bool) :
    Blameless (fun _ => True) (linksOf (linkTo base entries) number last hasNext) := by
  cases hlinks : looseInLinks? entries with
  | none =>
    rw [linksOf_of_hasLinks hlinks]
    exact .ok trivial
  | some text =>
    rw [linksOf_of_looseInLinks? hlinks]
    exact .error rfl

theorem blameless_firstRows (size : Quantity) (rows : List Value) :
    Blameless (fun _ => True) (firstRows size rows) := by
  cases size with
  | real x => exact .error rfl
  | _ => exact .ok trivial

theorem blameless_window (offset size : Quantity) (hc : IsAt root c) :
    Blameless (IsAt root) (window offset size c).result :=
  ((answered_offset offset.toValue).perform hc).andThen fun _ hc =>
    (answered_limit size.toValue).perform hc

section

variable {p : Pager} (entries : List (Value × Value))

theorem blameless_beginPage (hc : IsAt root c) :
    Blameless (fun begun => IsAt root begun.2) (p.beginPage entries c).result := by
  unfold Pager.beginPage
  refine (blameless_pageFields _).check fun f _ => ?_
  refine (blameless_count c).andThen fun records _ => ?_
  refine (blameless_inRange _).check fun pages _ => ?_
  simp only
  split
  · exact .error rfl
  · refine (blameless_inRange _).check fun offset _ => ?_
    rw [Traced.result_bind_of_ok (Traced.result_log _)]
    refine (blameless_window _ _ hc).andThen fun _ hpage => ?_
    exact (blameless_linksOf ..).check fun _ _ => .ok hpage

theorem blameless_beginFlat (hc : IsAt root c) :
    Blameless (fun begun => IsAt root begun.2) (p.beginFlat entries c).result := by
  unfold Pager.beginFlat
  refine (blameless_pageFields _).check fun f _ => ?_
  refine (blameless_count c).andThen fun records _ => ?_
  refine (blameless_inRange _).check fun pages _ => ?_
  refine (blameless_inRange _).check fun offset _ => ?_
  exact (blameless_window _ _ hc).andThen fun _ hpage => .ok hpage

theorem blameless_beginCountless (hc : IsAt root c) :
    Blameless (fun begun => Blameless (fun _ => True) begun.2.result)
      (p.beginCountless entries c).result := by
  unfold Pager.beginCountless
  refine (blameless_pageFields _).check fun f _ => ?_
  refine (blameless_inRange _).check fun offset _ => ?_
  rw [Traced.result_bind_of_ok (Traced.result_log _)]
  refine ((answered_offset _).perform hc).andThen fun opened hopened => ?_
  refine (blameless_inRange _).check fun size _ => ?_
  refine ((answered_limit _).perform hopened).andThen fun limited _ => ?_
  refine (blameless_all limited).andThen fun rows _ => ?_
  refine (blameless_linksOf ..).check fun links _ => ?_
  simp only
  split
  · exact (blameless_ensureWritable _).check fun _ _ => .ok (blameless_firstRows _ rows)
  · exact .ok (blameless_firstRows _ rows)

/-- A page that starts at an attribute of the model, or at none. -/
theorem blameless_keysetRecords {k : KeysetInfo}
    (h : ∀ t column, c = .live t → k.column = some column → column ≠ "" →
      (Schema.attributeAt? root column).isSome) (hc : IsAt root c) :
    Blameless (IsAt root) (Pager.keysetRecords k c).result := by
  unfold Pager.keysetRecords
  split
  · exact .ok hc
  · exact .ok hc
  · next column hempty hcolumn =>
    cases c with
    | given v => exact (blameless_given (P := fun _ => False) _ v).andThen fun _ hnone => hnone.elim
    | live t =>
      have hfound := h t column rfl hcolumn hempty
      unfold Pager.seekPage
      refine Blameless.andThen ((answered_reorderClauses fun clause hclause => ?_).perform hc)
        fun ordered hordered => ?_
      · rwa [List.mem_singleton.mp hclause]
      have hlimit {beyond : Selection (TableQuery E)} (hbeyond : IsAt root beyond) :
          Blameless (IsAt root) (do
            Traced.log (.pagingKeyset column k.seek.name k.position)
            Collection.perform (.limit k.limit.toValue) beyond : Traced _).result := by
        rw [Traced.result_bind_of_ok (Traced.result_log _)]
        exact (answered_limit _).perform hbeyond
      simp only
      split
      · exact ((answered_compare hfound _ _).perform hordered).andThen fun _ => hlimit
      · exact hlimit hordered

end

/-- A page that starts at a column which the model does not have is blamed on the configuration. -/
theorem result_keysetRecords_of_none {k : KeysetInfo} {column : String}
    (hcolumn : k.column = some column) (hempty : column ≠ "")
    (hnone : Schema.attributeAt? root column = none) {t : TableQuery E}
    (ht : t.statement.IsOver root) :
    ∃ why, (Pager.keysetRecords k (Selection.live t)).result = .error (.misconfigured why) := by
  obtain ⟨rfl, hgrown⟩ := ht
  let cleared : Statement E := { t.statement with order := [] }
  let clause : OrderClause := ⟨column, Pager.seekDirection k.seek⟩
  have hname : (Value.str column).text? = some column := rfl
  obtain ⟨why, hresolve⟩ := Statement.resolve_of_none (s := cleared) hgrown hname hnone
  have hstatement : t.statement.perform (.reorderClauses [clause]) = .error (.misconfigured why) := by
    show [clause.toValue].foldlM Statement.orderBy cleared = _
    rw [List.foldlM_cons, cleared.orderBy_of_error clause hresolve]
    rfl
  have hreorder : t.perform (.reorderClauses [clause]) = .error (.misconfigured why) := by
    rw [TableQuery.perform, hstatement]
    rfl
  refine ⟨why, ?_⟩
  unfold Pager.keysetRecords
  split
  · next hnil => cases hcolumn.symm.trans hnil
  · next hnil =>
    cases hcolumn.symm.trans hnil
    exact absurd rfl hempty
  · next found _ hfound =>
    cases hcolumn.symm.trans hfound
    refine Traced.result_bind_of_error (Traced.result_bind_of_error (x := Traced.ofExcept _) ?_ _) _
    exact hreorder

/-- **The page stage** blames no declaration, if the column that it starts at is an attribute or
there is no collection left to page. -/
theorem blameless_paginate {p : Pager} (hp : ∀ t, c = .live t → p.kind = .keyset →
    ∀ entries, p.entries = .ok entries → ¬ MisnamesColumn root entries) (hc : IsAt root c) :
    Blameless (fun paged => IsAt root paged.1) (p.paginate c).result := by
  have hentries : Blameless (fun entries => True ∧ p.entries = .ok entries) p.entries :=
    (blameless_filterEntries p.params).with_eq
  have hbegin : Blameless (fun begun => Blameless (IsAt root) begun.2.result)
      (p.begin c).result := by
    unfold Pager.begin
    split
    · exact .error rfl
    · exact .ok (.ok hc)
    · next hkind =>
      have hinfo : Blameless (fun k : KeysetInfo => ∀ t column, c = .live t →
          k.column = some column → column ≠ "" → (Schema.attributeAt? root column).isSome)
          (p.entries >>= fun entries => p.keysetInfo entries) := by
        refine hentries.bind fun entries hentries => ?_
        refine (blameless_keysetFields _).with_eq.bind fun f hf => .ok ?_
        intro t column hlive hcolumn hempty
        refine Option.isSome_iff_ne_none.mpr fun hnone => ?_
        exact hp t hlive hkind entries hentries.2 ⟨f, column, hf.2, hcolumn, hempty, hnone⟩
      exact hinfo.check fun k hk => .ok (blameless_keysetRecords hk hc)
    · exact hentries.check fun entries _ =>
        (blameless_beginPage entries hc).andThen fun _ hpage => .ok (.ok hpage)
    · exact hentries.check fun entries _ =>
        (blameless_beginFlat entries hc).andThen fun _ hpage => .ok (.ok hpage)
    · exact hentries.check fun entries _ =>
        (blameless_beginCountless entries hc).andThen fun _ hrows =>
          .ok (hrows.andThen fun _ _ => .ok trivial)
  exact hbegin.andThen fun begun hrecords => hrecords.andThen fun _ hpage => .ok hpage

/-- A page of this kind fails where its column is looked up. -/
theorem result_paginate_of_misnames {p : Pager} (hkind : p.kind = .keyset)
    {entries : List (Value × Value)} (hentries : p.entries = .ok entries)
    (hcolumn : MisnamesColumn root entries) {t : TableQuery E} (ht : t.statement.IsOver root) :
    ∃ why, (p.paginate (Selection.live t)).result = .error (.misconfigured why) := by
  obtain ⟨f, column, hread, hcolumn, hempty, hnone⟩ := hcolumn
  have hinfo : ∃ k, p.keysetInfo entries = .ok k ∧ k.column = some column := by
    unfold Pager.keysetInfo
    rw [hread]
    exact ⟨_, rfl, hcolumn⟩
  obtain ⟨k, hinfo, hcolumn⟩ := hinfo
  obtain ⟨why, hrecords⟩ := result_keysetRecords_of_none hcolumn hempty hnone ht
  have hbegin : (p.begin (Selection.live t)).result =
      .ok (.keyset k, Pager.keysetRecords k (Selection.live t)) := by
    unfold Pager.begin
    rw [hkind, hentries]
    simp only
    show (Traced.ofExcept (p.keysetInfo entries) >>= _).result = _
    rw [hinfo]
    rfl
  refine ⟨why, ?_⟩
  unfold Pager.paginate
  rw [Traced.result_bind_of_ok hbegin]
  exact Traced.result_bind_of_error hrecords _

/-! ## Queries -/

namespace Query

variable {q : Query (TableQuery E)}

/-- The pager of a query. -/
def pager {C : Type} (q : Query C) : Pager := ⟨q.rules.paginator, q.params, q.settings, q.base⟩

/-- Does a request name something for a stage that the model does not have? It may name a
relationship to include that is none, or a column to start a page at. -/
def Misnames (q : Query (TableQuery E)) (root : E) : Stage → Prop
  | .include => ∃ raw, q.param "include" = .ok raw ∧ MisnamesRelationship root raw
  | .paginate => q.rules.paginator = .keyset ∧
      ∃ entries, q.pager.entries = .ok entries ∧ MisnamesColumn root entries
  | .sort | .filter => False

theorem blameless_make {C : Type} (q : Query C) :
    Blameless (fun p => p = q.pager)
      (Pager.make q.rules.paginator q.params q.settings q.base) := by
  unfold Pager.make
  split
  · exact .error rfl
  · exact .ok rfl

/-- **One stage** blames no declaration unless the request misnames something for it. -/
theorem blameless_runStage (h : q.rules.Resolves root) {s : Stage}
    (hs : ∀ t, c = .live t → ¬ q.Misnames root s) (hc : IsAt root c) (before : Option Details) :
    Blameless (IsAt root) (q.runStage c s before).1.result := by
  have hstage : Blameless (IsAt root) (q.stage s .null c before).1.result := by
    cases s with
    | sort => exact (blameless_param q "sort").check fun raw _ => blameless_sort h raw hc
    | filter => exact (blameless_param q "filter").check fun raw _ => blameless_filter h raw hc
    | «include» =>
      refine (blameless_param q "include").with_eq.check fun raw hraw => ?_
      exact blameless_includeRequested
        (fun t hlive hmisnames => hs t hlive ⟨raw, hraw.2, hmisnames⟩) hc
    | paginate =>
      rw [stage, result_paginate]
      have hpage : Blameless (fun paged => IsAt root paged.1) (q.page .null c).result := by
        refine Blameless.check (P := fun params => params = q.params) (.ok rfl) ?_
        rintro _ rfl
        refine (blameless_make q).check ?_
        rintro _ rfl
        exact blameless_paginate (fun t hlive hkind entries hentries hcolumn =>
          hs t hlive ⟨hkind, entries, hentries, hcolumn⟩) hc
      exact hpage.map fun _ hpage => hpage
  rw [result_runStage]
  exact hstage

/-- A stage for which it does blames the declarations. -/
theorem result_runStage_of_misnames {s : Stage} (hs : q.Misnames root s) {t : TableQuery E}
    (ht : t.statement.IsOver root) (before : Option Details) :
    ∃ why, (q.runStage (.live t) s before).1.result = .error (.misconfigured why) := by
  have hstage : ∃ why, (q.stage s .null (.live t) before).1.result =
      .error (.misconfigured why) := by
    cases s with
    | sort => exact hs.elim
    | filter => exact hs.elim
    | «include» =>
      obtain ⟨raw, hraw, hmisnames⟩ := hs
      obtain ⟨why, hresult⟩ := result_includeRequested_of_misnames hmisnames ht.root_eq
      exact ⟨why, (Traced.result_bind_of_ok (x := Traced.ofExcept _) hraw _).trans hresult⟩
    | paginate =>
      obtain ⟨hkind, entries, hentries, hcolumn⟩ := hs
      obtain ⟨why, hresult⟩ := result_paginate_of_misnames (p := q.pager) hkind hentries hcolumn ht
      have hmake : Pager.make q.rules.paginator q.params q.settings q.base = .ok q.pager := by
        rw [pager, hkind]
        rfl
      have hpage : (q.page .null (.live t)).result = .error (.misconfigured why) :=
        ((Traced.result_bind_of_ok (x := Traced.ofExcept _) rfl _).trans
          (Traced.result_bind_of_ok (x := Traced.ofExcept _) hmake _)).trans hresult
      refine ⟨why, ?_⟩
      rw [stage, result_paginate, hpage]
      rfl
  rw [result_runStage]
  exact hstage

/-! ## All stages -/

/-- A place in a list is at its head or in its tail. -/
theorem exists_split_cons {α : Type} {x : α} {xs : List α} {P : List α → α → Prop} :
    (∃ before y after, x :: xs = before ++ y :: after ∧ P before y) ↔
      P [] x ∨ ∃ before y after, xs = before ++ y :: after ∧ P (x :: before) y := by
  constructor
  · rintro ⟨before, y, after, hsplit, hplace⟩
    cases before with
    | nil =>
      cases hsplit
      exact .inl hplace
    | cons _ before =>
      cases hsplit
      exact .inr ⟨before, y, after, rfl, hplace⟩
  · rintro (hplace | ⟨before, y, after, rfl, hplace⟩)
    · exact ⟨[], x, xs, rfl, hplace⟩
    · exact ⟨x :: before, y, after, rfl, hplace⟩

/-- **Which runs blame the declarations**: those that come to a stage for which the request misnames
something while there is a collection left. -/
theorem runStages_blame_iff (h : q.rules.Resolves root) {stages : List Stage} :
    ∀ {c : Selection (TableQuery E)} {before : Option Details}, IsAt root c →
      ((∃ e, (stages.foldlM q.runStage c before).1.result = .error e ∧
          e.isConfiguration = true) ↔
        ∃ ahead s later, stages = ahead ++ s :: later ∧
          ∃ t, (ahead.foldlM q.runStage c before).1.result = .ok (.live t) ∧
            q.Misnames root s) := by
  induction stages with
  | nil =>
    intro c before _
    constructor
    · rintro ⟨e, hrun, -⟩
      cases hrun
    · rintro ⟨ahead, s, later, hstages, -⟩
      exact absurd hstages.symm (by simp)
  | cons first rest ih =>
    intro c before hc
    rw [List.foldlM_cons, exists_split_cons]
    by_cases hs : ∃ t, c = .live t ∧ q.Misnames root first
    · obtain ⟨t, rfl, hmisnames⟩ := hs
      obtain ⟨why, hfails⟩ := result_runStage_of_misnames hmisnames hc before
      rw [Session.run_bind_of_error hfails]
      exact ⟨fun _ => .inl ⟨t, rfl, hmisnames⟩, fun _ => ⟨_, rfl, rfl⟩⟩
    · have hhead : ¬ ∃ t, (([] : List Stage).foldlM q.runStage c before).1.result = .ok (.live t) ∧
          q.Misnames root first := by
        rintro ⟨t, hrun, hmisnames⟩
        cases hrun
        exact hs ⟨t, rfl, hmisnames⟩
      have hfirst : Blameless (IsAt root) (q.runStage c first before).1.result :=
        blameless_runStage h (fun t hlive hmisnames => hs ⟨t, hlive, hmisnames⟩) hc before
      rw [or_iff_right hhead]
      cases hresult : (q.runStage c first before).1.result with
      | error e =>
        rw [Session.run_bind_of_error hresult]
        constructor
        · rintro ⟨_, hrun, hblames⟩
          cases hrun
          rw [hfirst.of_error hresult] at hblames
          cases hblames
        · rintro ⟨ahead, s, later, -, t, hrun, -⟩
          rw [List.foldlM_cons, Session.run_bind_of_error hresult] at hrun
          cases hrun
      | ok next =>
        simp only [List.foldlM_cons, Session.run_bind_of_ok hresult]
        exact ih (hfirst.of_ok hresult)

/-- **Which requests fail with an error of configuration.** A table of rules without strategies of
their own, whose names are attributes of the model, is asked for records of a database through any
calls, with any settings and whatever the request holds. The results blame the configuration exactly
if the stages ahead of one leave a collection and the request misnames something for it: a
relationship to include, or a column to start a page at. -/
theorem results_blame_iff {db : Database E} {calls : List Call} (h : q.rules.Resolves root)
    (hcollection : calls.foldlM (fun t call => TableQuery.perform call t) (TableQuery.all db root) =
      .ok q.collection) (before : Option Details) :
    (∃ e, (q.results before).1.result = .error e ∧ e.isConfiguration = true) ↔
      ∃ ahead s later, q.settings.pipeline = ahead ++ s :: later ∧
        ∃ t, (ahead.foldlM q.runStage (.live q.collection) before).1.result = .ok (.live t) ∧
          q.Misnames root s := by
  have hinvariant := ((joinInvariant_nil root).foldlM_perform (statement_of_calls hcollection)).1
  exact runStages_blame_iff h ⟨hinvariant.root_eq, hinvariant.joined.grown⟩

/-- People by age, from a request of any parameters, in pages that start at a position. -/
def peopleByAge (params : List (String × Value)) : Query (TableQuery Entity) where
  collection := TableQuery.all Entity.sample Entity.user
  params := .ofFields params
  rules :=
    { filters := [⟨"address.city", .equality "address.city", "city", false, []⟩]
      sorts := OrderedMap.empty.insert "age" (.byName "age")
      defaultSort := some (.clauses [⟨"mentor.age", .desc⟩])
      paginator := .keyset }
  settings := .default
  base := none
  name := "people"

/-- Books of a mentor that is called otherwise are asked for, and a page by a column that there is
not. -/
theorem results_blame_misnamed_people :
    (∀ params, (peopleByAge params).rules.Resolves Entity.user) ∧
      (∃ e, ((peopleByAge [("sort", .str "-age"), ("include", .str "books,tutor.books")]).results
          none).1.result = .error e ∧ e.isConfiguration = true) ∧
      ∃ e, ((peopleByAge [("page", .ofFields [("column", .str "height")])]).results
        none).1.result = .error e ∧ e.isConfiguration = true := by
  have hage : (Schema.attributeAt? Entity.user "age").isSome := by decide
  have hcity : (Schema.attributeAt? Entity.user "address.city").isSome := by decide
  have hid : (Schema.attributeAt? Entity.user "id").isSome := by decide
  have hmentor : (Schema.attributeAt? Entity.user "mentor.age").isSome := by decide
  have hsorts (name : String) (s : Strategy (TableQuery Entity))
      (hs : (OrderedMap.empty.insert "age" (Strategy.byName "age")).get? name = some s) :
      name = "age" ∧ s = .byName name := by
    by_cases hname : name = "age"
    · subst hname
      exact ⟨rfl, (Option.some.inj ((OrderedMap.get?_insert_self _ _ _).symm.trans hs)).symm⟩
    · cases (OrderedMap.get?_insert_of_ne hname _ _).symm.trans hs
  have hrules (params : List (String × Value)) :
      (peopleByAge params).rules.Resolves Entity.user :=
    { sorts := fun name s hs => (hsorts name s hs).2
      dynamicSorts := rfl
      defaultSort := fun usual husual => by
        cases husual
        exact ⟨_, rfl⟩
      filters := fun r hr => by
        rw [List.mem_singleton.mp hr]
        exact ⟨rfl, hcity⟩
      guards := fun r hr g hg query => by
        rw [List.mem_singleton.mp hr] at hg
        cases hg
      sortNames := fun name s hs => by
        rw [(hsorts name s hs).1]
        exact hage
      uniqueSort := fun clause hclause => by
        rw [List.mem_singleton.mp hclause]
        exact hid
      defaultNames := fun clauses hclauses clause hclause => by
        cases hclauses
        rw [List.mem_singleton.mp hclause]
        exact hmentor }
  have hcollection (params : List (String × Value)) :
      ([] : List Call).foldlM (fun t call => TableQuery.perform call t)
        (TableQuery.all Entity.sample Entity.user) = .ok (peopleByAge params).collection := rfl
  refine ⟨hrules, ?_, ?_⟩
  · have hsorted : ∃ t, ([Stage.sort].foldlM
        (peopleByAge [("sort", .str "-age"), ("include", .str "books,tutor.books")]).runStage
        (.live (TableQuery.all Entity.sample Entity.user)) none).1.result = .ok (.live t) :=
      ⟨_, rfl⟩
    obtain ⟨t, hsorted⟩ := hsorted
    have htokens : Request.tokens "books,tutor.books" = ["books", "tutor.books"] := by cbv
    have hchain : IncludeTree.chainOf "tutor.books" = ["tutor", "books"] := by cbv
    refine (results_blame_iff (hrules _) (hcollection _) none).mpr
      ⟨[.sort], .include, [.filter, .paginate], rfl, t, hsorted, .str "books,tutor.books", rfl,
        "books,tutor.books", rfl, "tutor.books", by simp [htokens], ?_⟩
    rw [hchain]
    rintro ⟨r, hr, -⟩
    cases hr
  · have hahead : ∃ t, ([Stage.sort, .include, .filter].foldlM
        (peopleByAge [("page", .ofFields [("column", .str "height")])]).runStage
        (.live (TableQuery.all Entity.sample Entity.user)) none).1.result = .ok (.live t) :=
      ⟨_, rfl⟩
    obtain ⟨t, hahead⟩ := hahead
    exact (results_blame_iff (hrules _) (hcollection _) none).mpr
      ⟨[.sort, .include, .filter], .paginate, [], rfl, t, hahead, rfl,
        [(.str "page", .map [(.str "column", .str "height")])], rfl, _, "height", rfl, rfl,
        by decide, rfl⟩

end Query

end ResourceQuery
