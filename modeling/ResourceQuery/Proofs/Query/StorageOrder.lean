import ResourceQuery.Proofs.Collection.KeyOrder
import ResourceQuery.Proofs.Collection.Matching
import ResourceQuery.Proofs.Collection.Window
import ResourceQuery.Proofs.Query.Stages

/-!
# The order of records does not depend on how they are stored

The clauses that break ties are sorted by first. Where no two records tie by all of them there is
only one arrangement in this order, however the records were stored, and whatever is sorted by
after them starts from there.

Headlines:
* **`LeavesNoTies`**: records of which any two differ in a clause.
* **`foldrM_sortByClause_of_perm`**: records that differ in such keys have one arrangement.
* **`Memory.sorted_of_perm`**: so have those of a collection whose ordering ends with such clauses.
* **`QueryRules.all_of_perm`**: the records of a sorted collection do not depend on how it is
  stored.
-/

namespace ResourceQuery

open Stable

/-! ## Clauses that leave no ties -/

variable {clauses : List OrderClause} {records : List Value}

/-- The values of every clause are in line, and any two records differ in one of them. -/
structure LeavesNoTies (clauses : List OrderClause) (records : List Value) : Prop where
  inLine : ∀ clause ∈ clauses, InLine (records.map (·.resolve clause.name))
  differ : records.Pairwise fun a b =>
    ∃ clause ∈ clauses, (a.resolve clause.name).same (b.resolve clause.name) = false

theorem LeavesNoTies.orders (h : LeavesNoTies clauses records) :
    ∀ clause ∈ Memory.clausesOf clauses, Orders clause records := by
  intro clause hclause
  obtain ⟨c, hc, rfl⟩ := List.mem_map.mp hclause
  exact (h.inLine c hc).orders

/-- Records that tie by all clauses are one record. -/
theorem LeavesNoTies.eq (h : LeavesNoTies clauses records) {a b : Value} (ha : a ∈ records)
    (hb : b ∈ records) (hab : orderLe (Memory.clausesOf clauses) a b = true)
    (hba : orderLe (Memory.clausesOf clauses) b a = true) : a = b := by
  by_contra hne
  -- the records differ in a clause, seen from one of them, and tie by it
  have hsame : ∀ c ∈ clauses, (a.resolve c.name).same (b.resolve c.name) = true ∧
      (b.resolve c.name).same (a.resolve c.name) = true := by
    intro c hc
    have hsymm : Std.Symm fun a b : Value => Placed (a.resolve c.name) (b.resolve c.name) :=
      ⟨fun _ _ hab => symm hab⟩
    have hplaced := (List.pairwise_map.mp (h.inLine c hc).placed).forall ha hb hne
    obtain ⟨hle, hge⟩ := clauseLe_of_orderLe hab hba _ (List.mem_map_of_mem hc)
    obtain ⟨hasc, hdesc⟩ := keyLe_asc_of_clauseLe hle hge
    exact hplaced.same hasc hdesc
  have hsymm : Std.Symm fun a b : Value => ∃ c ∈ clauses,
      (a.resolve c.name).same (b.resolve c.name) = false ∨
        (b.resolve c.name).same (a.resolve c.name) = false :=
    ⟨fun _ _ ⟨c, hc, hdiffer⟩ => ⟨c, hc, hdiffer.symm⟩⟩
  have hdiffer : records.Pairwise fun a b : Value => ∃ c ∈ clauses,
      (a.resolve c.name).same (b.resolve c.name) = false ∨
        (b.resolve c.name).same (a.resolve c.name) = false :=
    h.differ.imp fun ⟨c, hc, hdiffer⟩ => ⟨c, hc, Or.inl hdiffer⟩
  obtain ⟨c, hc, hfalse⟩ := hdiffer.forall ha hb hne
  obtain ⟨hab', hba'⟩ := hsame c hc
  rw [hab', hba'] at hfalse
  simp at hfalse

/-- **Records that differ have one arrangement**, however they stood before. -/
theorem foldrM_sortByClause_of_perm (h : LeavesNoTies clauses records) {others : List Value}
    (hperm : others.Perm records) :
    (Memory.clausesOf clauses).foldrM sortByClause others =
      .ok (records.mergeSort (orderLe (Memory.clausesOf clauses))) := by
  rw [foldrM_sortByClause_of_orders fun clause hclause => (h.orders clause hclause).perm hperm.symm]
  refine congrArg Except.ok ?_
  exact (ranks_orderLe_of_orders h.orders).mergeSort_eq_of_perm
    (fun a ha b hb hab hba => h.eq ha hb hab hba) hperm

/-! ## Collections that are stored in different ways -/

/-- Two collections hold the same records, in whatever order, and make the same query over them. -/
structure Memory.SameQuery (m m' : Memory) : Prop where
  items : m'.items.Perm m.items
  predicates : m'.predicates = m.predicates
  ordering : m'.ordering = m.ordering
  limit : m'.limit = m.limit
  offset : m'.offset = m.offset

namespace Memory

variable {m m' : Memory}

theorem SameQuery.matching (h : SameQuery m m') (hmatching : m.matching = .ok records) :
    ∃ others, m'.matching = .ok others ∧ others.Perm records := by
  obtain ⟨hall, rfl⟩ := matching_eq_ok_iff.mp hmatching
  refine ⟨_, matching_eq_ok_iff.mpr ⟨fun item hitem => ?_, rfl⟩, ?_⟩
  · rw [h.predicates]
    exact hall item (h.items.mem_iff.mp hitem)
  · rw [h.predicates]
    exact h.items.filter _

/-- **The sorted records do not depend on how a collection is stored** if the last clauses of its
ordering leave no ties. -/
theorem sorted_of_perm (h : SameQuery m m') {before : List (Value × Direction)}
    (hordering : m.ordering = before ++ clausesOf clauses) (hmatching : m.matching = .ok records)
    (hties : LeavesNoTies clauses records) : m'.sorted = m.sorted := by
  obtain ⟨others, hothers, hperm⟩ := h.matching hmatching
  unfold sorted
  rw [hothers, hmatching, h.ordering, hordering]
  show List.foldrM sortByClause others _ = List.foldrM sortByClause records _
  rw [List.foldrM_append, List.foldrM_append, foldrM_sortByClause_of_perm hties hperm,
    foldrM_sortByClause_of_perm hties (.refl records)]

theorem rows_eq {sorted : List Value} {start : Int} {stop : Option Int}
    (hsorted : m.sorted = .ok sorted) (hstart : m.start = .ok start) (hstop : m.stop = .ok stop) :
    m.rows = .ok (Value.slice start stop sorted) := by
  unfold Memory.rows
  rw [hsorted, hstart, hstop]
  rfl

theorem SameQuery.rows (h : SameQuery m m') (hsorted : m'.sorted = m.sorted) :
    m'.rows = m.rows := by
  have hstart : m'.start = m.start := by
    unfold start
    rw [h.offset]
  unfold Memory.rows stop
  rw [hsorted, hstart, h.limit]

end Memory

/-! ## The sort stage -/

namespace QueryRules

/-- **The records of a sorted collection do not depend on how it is stored.** A table of usual sorts
is asked for permitted attributes; the matching records compare by every clause of the ordering,
and the clauses that break ties leave none. Then collections that hold the same records in any two
orders are both sorted, and all records of the one, in the window that they have, are those of the
other. -/
theorem all_of_perm {rules : QueryRules Memory} {settings : Settings} {given : Option String}
    {m m' : Memory} {records : List Value} (hrules : rules.SortsUsually)
    (hpermitted : ∀ p ∈ sortParams (.ofText given), rules.isSortPermitted p.name = true)
    (hsame : m.SameQuery m') (hmatching : m.matching = .ok records)
    (hcompare : ∀ clause ∈ rules.orderOf settings (sortParams (.ofText given)) m.ordering,
      Compares clause records)
    (hties : LeavesNoTies rules.uniqueSort records) :
    ∃ s s', (rules.sort settings (.ofText given) (.live m)).result = .ok s ∧
      (rules.sort settings (.ofText given) (.live m')).result = .ok s' ∧
      (Collection.all s).result = (Collection.all s').result ∧
      ∀ start stop, m.start = .ok start → m.stop = .ok stop →
        ∃ sorted, sorted.Perm records ∧
          (Collection.all s).result = .ok (Value.slice start stop sorted) := by
  have hordered : Memory.SameQuery
      { m with ordering := rules.orderOf settings (sortParams (.ofText given)) m.ordering }
      { m' with ordering := rules.orderOf settings (sortParams (.ofText given)) m'.ordering } :=
    { hsame with ordering := by rw [hsame.ordering] }
  refine ⟨_, _, result_sort hrules hpermitted m, result_sort hrules hpermitted m', ?_, ?_⟩
  · exact (hordered.rows (Memory.sorted_of_perm hordered rfl hmatching hties)).symm
  · intro start stop hstart hstop
    obtain ⟨sorted, hsorted⟩ := Memory.exists_sorted
      (m := { m with ordering := rules.orderOf settings (sortParams (.ofText given)) m.ordering })
      hmatching hcompare
    obtain ⟨matching, hmatching', hperm⟩ := perm_of_sorted hsorted
    cases hmatching.symm.trans hmatching'
    exact ⟨sorted, hperm, Memory.rows_eq hsorted hstart hstop⟩

/-- Records of teams, of which two share one and one has none. -/
def teamRecords : List Value :=
  [.record [("id", .int 2), ("team", .str "a")], .record [("id", .int 3), ("team", .null)],
    .record [("id", .int 1), ("team", .str "a")]]

/-- Requests may sort by the team. -/
def teamRules : QueryRules Memory where
  sorts := OrderedMap.empty.insert "team" (.byName "team")

/-- The two records of a team stand by their identifiers, whichever was stored first. -/
theorem all_of_teamRecords :
    ∃ s s', (teamRules.sort .default (.ofText (some "-team"))
        (.live { items := teamRecords })).result = .ok s ∧
      (teamRules.sort .default (.ofText (some "-team"))
        (.live { items := teamRecords.reverse })).result = .ok s' ∧
      (Collection.all s).result = (Collection.all s').result ∧
      (Collection.all s).result = .ok [.record [("id", .int 3), ("team", .null)],
        .record [("id", .int 1), ("team", .str "a")],
        .record [("id", .int 2), ("team", .str "a")]] := by
  have hrules : teamRules.SortsUsually := by
    refine ⟨fun name s hs => ?_, rfl, fun usual husual => by cases husual⟩
    by_cases hname : name = "team"
    · subst hname
      exact (Option.some.inj ((OrderedMap.get?_insert_self _ _ _).symm.trans hs)).symm
    · cases (OrderedMap.get?_insert_of_ne hname _ _).symm.trans hs
  have hparams : sortParams (.ofText (some "-team")) = [⟨"team", true⟩] := by rfl
  have hpermitted : ∀ p ∈ sortParams (.ofText (some "-team")),
      teamRules.isSortPermitted p.name = true := by
    rw [hparams]
    intro p hp
    rw [List.mem_singleton.mp hp]
    rfl
  have hsame : Memory.SameQuery { items := teamRecords } { items := teamRecords.reverse } :=
    ⟨List.reverse_perm _, rfl, rfl, rfl, rfl⟩
  have hmatching : Memory.matching { items := teamRecords } = .ok teamRecords := by rfl
  have hsortable : ∀ clause ∈ [(Value.str "team", Direction.desc), (.str "id", .asc)],
      Sortable clause teamRecords := by
    intro clause hclause
    rcases List.mem_pair.mp hclause with rfl | rfl
    · exact ⟨fun item _ => ⟨_, rfl⟩, by decide +kernel⟩
    · exact ⟨fun item _ => ⟨_, rfl⟩, by decide +kernel⟩
  have horder : teamRules.orderOf .default (sortParams (.ofText (some "-team"))) [] =
      [(.str "team", .desc), (.str "id", .asc)] := by
    rfl
  have hcompare : ∀ clause ∈ teamRules.orderOf .default (sortParams (.ofText (some "-team"))) [],
      Compares clause teamRecords := by
    rw [horder]
    exact fun clause hclause => (hsortable clause hclause).orders.toCompares
  have hties : LeavesNoTies teamRules.uniqueSort teamRecords := by
    refine ⟨fun clause hclause => ?_, ?_⟩
    · rw [List.mem_singleton.mp hclause]
      exact inLine_of_haveOrder (by decide +kernel)
    · have hids : teamRecords.Pairwise fun a b =>
          (a.resolve "id").same (b.resolve "id") = false := by
        simp only [teamRecords, List.pairwise_cons, List.forall_mem_cons]
        refine ⟨⟨by decide +kernel, by decide +kernel, by simp⟩, ⟨by decide +kernel, by simp⟩, by simp⟩
      exact hids.imp fun hab => ⟨_, List.mem_singleton_self _, hab⟩
  obtain ⟨s, s', hs, hs', hall, -⟩ :=
    all_of_perm hrules hpermitted hsame hmatching hcompare hties
  refine ⟨s, s', hs, hs', hall, ?_⟩
  cases hs.symm.trans (result_sort hrules hpermitted { items := teamRecords })
  have hplaces : ([1, 2, 0] : List (Fin 3)).Perm (List.finRange 3) := by decide
  show (Memory.unwindowed { items := teamRecords, ordering := teamRules.orderOf _ _ [] }).rows = _
  rw [Memory.rows_unwindowed, horder]
  exact foldrM_sortByClause_of_places (n := 3) hsortable rfl hplaces (by decide +kernel)

end QueryRules

end ResourceQuery
