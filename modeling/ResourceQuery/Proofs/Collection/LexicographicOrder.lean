import ResourceQuery.Proofs.Collection.KeyOrder
import ResourceQuery.Proofs.Collection.Window
import ResourceQuery.Proofs.Query.Run

/-!
# The lexicographic order of records

A collection sorts once for each clause, from the last one to the first. Stated without a sort:
of two records the one stands first that comes first by the first clause in which they differ, and
records that differ in no clause stand as they stood. Only one list is arranged in this way, so
that the repeated sorts can give no other.

Headlines:
* **`OrderClause.place?`**, **`lexPlace?`**: where a record stands next to another by one clause,
  and by several.
* **`Arranged`**: a list of records that is arranged by clauses.
* **`arranged_iff`**: the arranged list is the one that the sorts give, and no other.
* **`arranged_drop_iff`**: a clause on an attribute that occurred before changes nothing.
* **`Memory.all_of_orderBy`**: what a collection gives that was asked for an order.
-/

namespace ResourceQuery

open Stable

/-! ## Two records -/

/-- Where a record stands next to another by a clause. A descending clause compares the other way
round, which puts absent values first. -/
def OrderClause.place? (clause : OrderClause) (a b : Value) : Option Ordering :=
  match clause.direction with
  | .asc => keyPlace? (a.resolve clause.name) (b.resolve clause.name)
  | .desc => keyPlace? (b.resolve clause.name) (a.resolve clause.name)

/-- Where a record stands next to another by the first clause in which they differ. -/
def lexPlace? : List OrderClause → Value → Value → Option Ordering
  | [], _, _ => some .eq
  | clause :: rest, a, b =>
    match clause.place? a b with
    | some .eq => lexPlace? rest a b
    | place => place

/-- The values of two records compare, for every clause. -/
def ComparableBy (clauses : List OrderClause) (a b : Value) : Prop :=
  ∀ clause ∈ clauses, Placed (a.resolve clause.name) (b.resolve clause.name)

variable {clauses : List OrderClause} {a b : Value}

theorem ComparableBy.symm (h : ComparableBy clauses a b) : ComparableBy clauses b a :=
  fun clause hclause => Std.Symm.symm _ _ (h clause hclause)

namespace OrderClause

variable {clause : OrderClause}

theorem exists_place? (h : Placed (a.resolve clause.name) (b.resolve clause.name)) :
    ∃ o, clause.place? a b = some o ∧ clause.place? b a = some o.swap := by
  obtain ⟨o, hab, hba⟩ := h
  unfold place?
  cases clause.direction with
  | asc => exact ⟨o, hab, hba⟩
  | desc => exact ⟨o.swap, hba, by rw [Ordering.swap_swap]; exact hab⟩

/-- The sort by a clause lets a record stand before another that does not come before it. -/
theorem clauseLe_iff :
    clauseLe (.str clause.name, clause.direction) a b = true ↔ clause.place? b a ≠ some .lt := by
  unfold place? clauseLe
  cases clause.direction with
  | asc => exact keyLe_asc_iff
  | desc => exact keyLe_asc_iff

/-- Records tie by a clause if its values tie, whatever the direction is. -/
theorem place?_eq_iff (h : Placed (a.resolve clause.name) (b.resolve clause.name)) :
    clause.place? a b = some .eq ↔
      keyPlace? (a.resolve clause.name) (b.resolve clause.name) = some .eq := by
  obtain ⟨o, hab, hba⟩ := h
  unfold place?
  cases clause.direction with
  | asc => exact Iff.rfl
  | desc =>
    simp only [hab, hba]
    cases o <;> decide

theorem place?_eq_of_name_eq {other : OrderClause} (hname : clause.name = other.name)
    (h : Placed (a.resolve clause.name) (b.resolve clause.name))
    (htie : other.place? a b = some .eq) : clause.place? a b = some .eq := by
  rw [place?_eq_iff h, hname]
  exact (place?_eq_iff (hname ▸ h)).mp htie

end OrderClause

/-- **Two records have a place** by several clauses if they have one by each, seen alike from both,
and the combined sort goes by it. -/
theorem exists_lexPlace? (h : ComparableBy clauses a b) :
    ∃ o, lexPlace? clauses a b = some o ∧ lexPlace? clauses b a = some o.swap ∧
      (orderLe (Memory.clausesOf clauses) a b = true ↔ o ≠ .gt) ∧
      (orderLe (Memory.clausesOf clauses) b a = true ↔ o ≠ .lt) := by
  induction clauses with
  | nil => exact ⟨.eq, rfl, rfl, by simp [Memory.clausesOf, orderLe], by
      simp [Memory.clausesOf, orderLe]⟩
  | cons clause rest ih =>
    obtain ⟨hclause, hrest⟩ := List.forall_mem_cons.mp h
    obtain ⟨first, hab, hba⟩ := OrderClause.exists_place? hclause
    obtain ⟨o, hplace, hother, hle, hge⟩ := ih hrest
    have hstep {x y : Value} : orderLe (Memory.clausesOf (clause :: rest)) x y = true ↔
        clause.place? y x ≠ some .lt ∧
          (clause.place? x y ≠ some .lt → orderLe (Memory.clausesOf rest) x y = true) := by
      rw [← OrderClause.clauseLe_iff, ← OrderClause.clauseLe_iff]
      exact thenLe_iff
    rw [hstep, hstep, hab, hba, lexPlace?, lexPlace?, hab, hba]
    cases first with
    | lt => exact ⟨.lt, rfl, rfl, by simp, by simp⟩
    | eq => exact ⟨o, hplace, hother, by simpa using hle, by simpa using hge⟩
    | gt => exact ⟨.gt, rfl, rfl, by simp, by simp⟩

/-- A clause by which two records tie decides nothing, wherever it stands. -/
theorem lexPlace?_drop_of_tie {clause : OrderClause} (htie : clause.place? a b = some .eq) :
    ∀ before after : List OrderClause,
      lexPlace? (before ++ clause :: after) a b = lexPlace? (before ++ after) a b
  | [], after => by rw [List.nil_append, List.nil_append, lexPlace?, htie]
  | first :: before, after => by
    rw [List.cons_append, List.cons_append, lexPlace?, lexPlace?,
      lexPlace?_drop_of_tie htie before after]

/-- **A clause on an attribute that occurred before** decides nothing. -/
theorem lexPlace?_drop {clause : OrderClause} {before after : List OrderClause}
    (hname : clause.name ∈ before.map (·.name))
    (h : Placed (a.resolve clause.name) (b.resolve clause.name)) :
    lexPlace? (before ++ clause :: after) a b = lexPlace? (before ++ after) a b := by
  induction before with
  | nil => cases hname
  | cons first before ih =>
    rw [List.cons_append, List.cons_append, lexPlace?, lexPlace?]
    split
    · next htie =>
      rcases List.mem_cons.mp hname with hfirst | hbefore
      · exact lexPlace?_drop_of_tie (OrderClause.place?_eq_of_name_eq hfirst h htie) before after
      · exact ih hbefore
    · rfl

/-! ## Arranged records -/

/-- A record, beside the place where it stood, comes before another: by the first clause in which
they differ, or by their places. -/
def StandsFirst (clauses : List OrderClause) (a b : Value × Nat) : Prop :=
  lexPlace? clauses a.1 b.1 = some .lt ∨ (lexPlace? clauses a.1 b.1 = some .eq ∧ a.2 < b.2)

/-- **Arranged by clauses**: the same records, each as often, in the order of the first clause in
which two of them differ; those that differ in none stand as they stood. -/
def Arranged (clauses : List OrderClause) (records sorted : List Value) : Prop :=
  ∃ placed : List (Value × Nat), placed.Perm records.zipIdx ∧ placed.map (·.1) = sorted ∧
    placed.Pairwise (StandsFirst clauses)

theorem standsFirst_iff {a b : Value × Nat} (h : ComparableBy clauses a.1 b.1) (hne : a.2 ≠ b.2) :
    StandsFirst clauses a b ↔ PlacedLe (orderLe (Memory.clausesOf clauses)) a b := by
  obtain ⟨o, hab, -, hle, hge⟩ := exists_lexPlace? h
  unfold StandsFirst PlacedLe
  rw [hab, hle, hge]
  cases o with
  | lt => simp
  | eq => simpa using (Nat.le_iff_lt_or_eq.trans (or_iff_left hne)).symm
  | gt => simp

variable {records : List Value}

/-- Values that compare for each clause compare for all of them. -/
theorem pairwise_comparableBy
    (h : ∀ clause ∈ clauses, (records.map (·.resolve clause.name)).Pairwise Placed) :
    records.Pairwise (ComparableBy clauses) := by
  simp only [List.pairwise_map] at h
  rw [List.pairwise_iff_getElem]
  intro i j hi hj hij clause hclause
  exact List.pairwise_iff_getElem.mp (h clause hclause) i j hi hj hij

/-- The records of a list beside their places: any two compare and have different places. -/
theorem pairwise_of_perm_zipIdx (h : records.Pairwise (ComparableBy clauses))
    {placed : List (Value × Nat)} (hperm : placed.Perm records.zipIdx) :
    placed.Pairwise fun a b => ComparableBy clauses a.1 b.1 ∧ a.2 ≠ b.2 := by
  have hrecords : records.zipIdx.Pairwise fun a b => ComparableBy clauses a.1 b.1 := by
    rw [← List.zipIdx_map_fst 0 records] at h
    exact List.pairwise_map.mp h
  have hplaces : records.zipIdx.Pairwise fun a b => a.2 ≠ b.2 := by
    have hrange : (records.zipIdx.map (·.2)).Nodup := by
      rw [List.zipIdx_map_snd]
      exact List.nodup_range'
    exact List.pairwise_map.mp hrange
  refine (hperm.pairwise_iff fun hab => ?_).mpr (hrecords.and hplaces)
  exact ⟨hab.1.symm, hab.2.symm⟩

theorem orders_of_pairwise
    (h : ∀ clause ∈ clauses, (records.map (·.resolve clause.name)).Pairwise Placed) :
    ∀ clause ∈ Memory.clausesOf clauses, Orders clause records := by
  intro clause hclause
  obtain ⟨c, hc, rfl⟩ := List.mem_map.mp hclause
  exact (inLine_of_placed (h c hc)).orders

/-- **One list is arranged** by clauses whose values compare, and the sorts give it. -/
theorem arranged_iff
    (h : ∀ clause ∈ clauses, (records.map (·.resolve clause.name)).Pairwise Placed)
    {sorted : List Value} :
    Arranged clauses records sorted ↔
      sorted = records.mergeSort (orderLe (Memory.clausesOf clauses)) := by
  have hranks := ranks_orderLe_of_orders (orders_of_pairwise h)
  have hcompare := pairwise_comparableBy h
  constructor
  · rintro ⟨placed, hperm, rfl, hplaced⟩
    refine hranks.eq_mergeSort_of_placed hperm ?_
    refine (hplaced.and (pairwise_of_perm_zipIdx hcompare hperm)).imp ?_
    rintro a b ⟨hab, hcompare, hne⟩
    exact (standsFirst_iff hcompare hne).mp hab
  · rintro rfl
    have hperm := List.mergeSort_perm records.zipIdx
      (Stable.onItems (orderLe (Memory.clausesOf clauses)))
    have hplaced := hranks.onItems.pairwise_of_stable (pairwise_zipIdx records)
    refine ⟨_, hperm, ?_, ?_⟩
    · rw [map_mergeSort_onItems, List.zipIdx_map_fst]
    · refine (hplaced.and (pairwise_of_perm_zipIdx hcompare hperm)).imp ?_
      rintro a b ⟨hab, hcompare, hne⟩
      exact (standsFirst_iff hcompare hne).mpr hab

/-- **Leaving out a clause** on an attribute that occurred before changes no arrangement. -/
theorem arranged_drop_iff {clause : OrderClause} {before after : List OrderClause}
    (hname : clause.name ∈ before.map (·.name))
    (h : (records.map (·.resolve clause.name)).Pairwise Placed) {sorted : List Value} :
    Arranged (before ++ clause :: after) records sorted ↔
      Arranged (before ++ after) records sorted := by
  have hcompare : records.Pairwise (ComparableBy [clause]) :=
    pairwise_comparableBy fun c hc => by
      rw [List.mem_singleton.mp hc]
      exact h
  refine exists_congr fun placed => and_congr_right fun hperm => and_congr_right fun _ => ?_
  have hpairs := pairwise_of_perm_zipIdx hcompare hperm
  have hiff {a b : Value × Nat} (hab : ComparableBy [clause] a.1 b.1) :
      StandsFirst (before ++ clause :: after) a b ↔ StandsFirst (before ++ after) a b := by
    unfold StandsFirst
    rw [lexPlace?_drop hname (hab clause (List.mem_singleton_self _))]
  exact ⟨fun hplaced => (hplaced.and hpairs).imp fun hab => (hiff hab.2.1).mp hab.1,
    fun hplaced => (hplaced.and hpairs).imp fun hab => (hiff hab.2.1).mpr hab.1⟩

/-! ## Collections that were asked for an order -/

namespace Memory

variable {m : Memory}

theorem result_all_unwindowed {ordering : List (Value × Direction)} :
    (Collection.all { m with ordering }.unwindowed).result =
      (do ordering.foldrM sortByClause (← m.matching)) :=
  rows_unwindowed { m with ordering }

theorem sorted_of_pairwise {records : List Value} (hmatching : m.matching = .ok records)
    (h : ∀ clause ∈ clauses, (records.map (·.resolve clause.name)).Pairwise Placed) :
    (Collection.all { m with ordering := clausesOf clauses }.unwindowed).result =
      .ok (records.mergeSort (orderLe (clausesOf clauses))) := by
  rw [result_all_unwindowed, hmatching]
  exact foldrM_sortByClause_of_orders (orders_of_pairwise h)

/-- **Repeated stable sorts are the lexicographic sort.** A collection without a window is asked for
clauses, which come after those it has. For every attribute among them the values of the matching
records are absent or compare with each other. Then all records can be listed; they are the
matching ones, arranged by the clauses; no other list is arranged so; and without a clause whose
attribute occurs before it they are the same. -/
theorem all_of_orderBy {given matching : List Value} {ordering clauses : List OrderClause}
    (hordering : m.ordering = clausesOf ordering)
    (hgiven : given.mapM readClause = .ok (clausesOf clauses))
    (hmatching : m.matching = .ok matching)
    (hcompare : ∀ clause ∈ ordering ++ clauses,
      (matching.map (·.resolve clause.name)).Pairwise Placed) :
    ∃ sorted,
      (do Collection.all (← Collection.perform (.orderBy given) m.unwindowed)).result =
        .ok sorted ∧
      Arranged (ordering ++ clauses) matching sorted ∧
      (∀ other, Arranged (ordering ++ clauses) matching other → other = sorted) ∧
      ∀ before clause after, ordering ++ clauses = before ++ clause :: after →
        clause.name ∈ before.map (·.name) →
        (do Collection.all (← Collection.perform (.reorderClauses (before ++ after))
          m.unwindowed)).result = .ok sorted := by
  have hperform : m.unwindowed.perform (.orderBy given) =
      .ok { m with ordering := clausesOf (ordering ++ clauses) }.unwindowed := by
    rw [clausesOf, List.map_append]
    show (do return { m.unwindowed with ordering := m.ordering ++ (← _) } : Except _ Memory) = _
    rw [hgiven, hordering]
    rfl
  refine ⟨_, ?_, (arranged_iff hcompare).mpr rfl, fun other => (arranged_iff hcompare).mp, ?_⟩
  · rw [Traced.result_bind_of_ok hperform]
    exact sorted_of_pairwise hmatching hcompare
  · intro before clause after hsplit hname
    rw [hsplit] at hcompare ⊢
    have hdropped : ∀ c ∈ before ++ after, (matching.map (·.resolve c.name)).Pairwise Placed :=
      fun c hc => hcompare c (by
        rcases List.mem_append.mp hc with hc | hc
        · exact List.mem_append_left _ hc
        · exact List.mem_append_right _ (List.mem_cons_of_mem _ hc))
    have hclause := hcompare clause (List.mem_append_right _ List.mem_cons_self)
    have hsame := (arranged_iff hdropped).mp
      ((arranged_drop_iff hname hclause).mp ((arranged_iff hcompare).mpr rfl))
    rw [Traced.result_bind_of_ok (perform_reorderClauses m.unwindowed (before ++ after)), hsame]
    exact sorted_of_pairwise hmatching hdropped

/-- Records of a staff: two of them tie, one has no age and one no team. -/
def staffRecords : List Value :=
  [.record [("id", .int 1), ("team", .str "red"), ("age", .int 36)],
    .record [("id", .int 2), ("team", .null), ("age", .int 29)],
    .record [("id", .int 3), ("team", .str "blue"), ("age", .null)],
    .record [("id", .int 4), ("team", .str "red"), ("age", .int 29)],
    .record [("id", .int 5), ("team", .str "blue"), ("age", .int 51)],
    .record [("id", .int 6), ("team", .str "red"), ("age", .int 36)]]

/-- They stand by descending teams. -/
def staff : Memory := { items := staffRecords, ordering := clausesOf [⟨"team", .desc⟩] }

/-- The record without a team comes first, and the one without an age last in its team. To ask for
ascending teams as well decides nothing. -/
theorem all_of_staff :
    ∃ sorted,
      (do Collection.all (← Collection.perform
        (.orderBy [.tuple [.str "age", .str "asc"], .list [.str "team", .str "asc"]])
          staff.unwindowed)).result = .ok sorted ∧
      sorted.map (·.resolve "id") = [.int 2, .int 4, .int 1, .int 6, .int 5, .int 3] ∧
      Arranged [⟨"team", .desc⟩, ⟨"age", .asc⟩, ⟨"team", .asc⟩] staffRecords sorted ∧
      (do Collection.all (← Collection.perform
        (.reorderClauses [⟨"team", .desc⟩, ⟨"age", .asc⟩]) staff.unwindowed)).result =
          .ok sorted := by
  have hgiven : [Value.tuple [.str "age", .str "asc"], .list [.str "team", .str "asc"]].mapM
      readClause = .ok (clausesOf [⟨"age", .asc⟩, ⟨"team", .asc⟩]) := by rfl
  have hmatching : staff.matching = .ok staffRecords := by rfl
  have hteam : (staffRecords.map (·.resolve "team")).Pairwise Placed :=
    (inLine_of_haveOrder (by decide +kernel)).placed
  have hage : (staffRecords.map (·.resolve "age")).Pairwise Placed :=
    (inLine_of_haveOrder (by decide +kernel)).placed
  have hcompare : ∀ clause ∈ [⟨"team", .desc⟩] ++ [⟨"age", .asc⟩, ⟨"team", .asc⟩],
      (staffRecords.map (·.resolve (OrderClause.name clause))).Pairwise Placed := by
    simp only [List.cons_append, List.nil_append, List.forall_mem_cons]
    exact ⟨hteam, hage, hteam, fun _ h => absurd h List.not_mem_nil⟩
  obtain ⟨sorted, hall, harranged, -, hdrop⟩ := all_of_orderBy rfl hgiven hmatching hcompare
  refine ⟨sorted, hall, ?_, harranged,
    hdrop [⟨"team", .desc⟩, ⟨"age", .asc⟩] ⟨"team", .asc⟩ [] rfl List.mem_cons_self⟩
  have hranks := ranks_orderLe_of_orders (orders_of_pairwise hcompare)
  have hplaces : ([1, 3, 0, 5, 4, 2] : List (Fin 6)).Perm (List.finRange 6) := by decide
  rw [(arranged_iff hcompare).mp harranged,
    hranks.mergeSort_eq_of_places (n := 6) rfl hplaces (by decide +kernel)]
  rfl

end Memory

end ResourceQuery
