import ResourceQuery.Proofs.Collection.Matching
import ResourceQuery.Proofs.Sql.Order
import ResourceQuery.Proofs.Sql.Simulation
import ResourceQuery.Sql.Sample

/-!
# A database and a collection in memory agree

The same calls on a statement over a database and on the same rows as nested records find the same
records and count the same number. Rows that tie may come in any order from a database, so the
final order has to contain the key, and null is sorted to the other end than in memory, so nothing
that is sorted by may be null.

Headlines:
* **`Simulates.matching`**, **`Simulates.restricted`**: both keep the same rows.
* **`Simulates.sorted`**, **`Simulates.ordered`**: both put them in the same order.
* **`Simulates.eq_ordered`**: that order is the only one.
* **`collections_agree`**: both find the same records in the same order and count the same number.
-/

namespace ResourceQuery.Sql

variable {E : Type} [Schema E]

/-! ## Reading a row and its record -/

/-- Is a row kept by the restrictions of a statement? -/
def Statement.keeps (s : Statement E) (db : Database E) (row : Row) : Bool :=
  s.restrictions.all (·.holds db (db.spread s.root s.joins row))

section

variable [Schema.Keyed E] {db : Database E} {root : E} {depth : Nat} {s : Statement E} {m : Memory}
  {row : Row} {record : Value}

/-- A column and the attribute at its path have the same value. -/
theorem Reads.value (hdb : db.IsSound) (hrow : row ∈ db.rows root)
    (hrecord : Mirrors db depth root row record) {joins : List (Join E)} {path : String}
    {ref : ColumnRef} (h : Reads root depth joins path ref) :
    ref.column.affinity.admits ((db.spread root joins row).value ref) = true ∧
      record.resolve path = ((db.spread root joins row).value ref).toValue := by
  obtain ⟨-, model, hmodel, hc⟩ := Schema.columnAt?_eq_some_iff.mp h.column
  have hvalue : (db.spread root joins row).value ref =
      db.cellAt root row ref.path ref.column.name := cell_spread h.joined _
  rw [hvalue]
  exact ⟨Database.admits_cellAt hdb hrow hmodel hc,
    resolve_of_mirrors hrecord h.column h.short⟩

theorem allHold_of_testsAlike (hdb : db.IsSound) (hrow : row ∈ db.rows root)
    (hrecord : Mirrors db depth root row record) {joins : List (Join E)}
    {rs : List (Restriction E)} {ps : List Predicate}
    (h : List.Forall₂ (TestsAlike root depth joins) rs ps) :
    Predicate.allHold record ps = .ok (rs.all (·.holds db (db.spread root joins row))) := by
  induction h with
  | nil => rfl
  | @cons r p rs ps hfirst _ ih =>
    obtain ⟨path, ref, hreads, hsame, -⟩ := hfirst
    obtain ⟨hadmits, hvalue⟩ := hreads.value hdb hrow hrecord
    rw [Predicate.allHold, hsame db _ record hadmits hvalue, List.all_cons]
    cases r.holds db (db.spread root joins row) with
    | true => exact ih
    | false => rfl

/-- The restrictions keep the rows of the root that they are true of. -/
theorem Simulates.restricted (hdb : db.IsSound) (h : Simulates root depth s m) :
    s.restricted db = ((db.rows root).filter (s.keeps db)).map (db.spread root s.joins) := by
  have hroot := h.root_eq
  subst hroot
  unfold Statement.restricted
  rw [Statement.joined_eq_map hdb h.joined, List.filter_map]
  rfl

end

/-! ## The same rows -/

section

variable [Schema.Keyed E] {db : Database E} {root : E} {depth : Nat} {s : Statement E} {m : Memory}
  {rows : List Row} {record : Row → Value}

/-- The predicates keep the records of the rows that the restrictions keep. -/
theorem Simulates.matching (hdb : db.IsSound) (h : Simulates root depth s m)
    (hmem : ∀ row ∈ rows, row ∈ db.rows root)
    (hrecord : ∀ row ∈ rows, Mirrors db depth root row (record row))
    (hitems : m.items = rows.map record) :
    m.matching = .ok ((rows.filter (s.keeps db)).map record) := by
  have hroot := h.root_eq
  subst hroot
  have hholds : ∀ row ∈ rows,
      Predicate.allHold (record row) m.predicates = .ok (s.keeps db row) := fun row hrow =>
    allHold_of_testsAlike hdb (hmem row hrow) (hrecord row hrow) h.tests
  rw [Memory.matching, filterM_eq_ok_iff, hitems]
  constructor
  · intro item hitem
    obtain ⟨row, hrow, rfl⟩ := List.mem_map.mp hitem
    exact ⟨_, hholds row hrow⟩
  · rw [List.filter_map]
    refine congrArg (List.map record) (List.filter_congr fun row hrow => ?_)
    rw [Function.comp_apply, hholds row hrow, isYes]

/-! ## The same order -/

/-- Is nothing null that the matching rows are sorted by? -/
def Statement.SortsPresent (s : Statement E) (db : Database E) : Prop :=
  ∀ row ∈ s.restricted db, ∀ clause ∈ s.order, row.value clause.1 ≠ .null

/-- Does the key of the root stand among the order clauses? -/
def Statement.OrdersByKey (s : Statement E) : Prop :=
  ∃ clause ∈ s.order, clause.1.path = [] ∧
    clause.1.column.name = (Schema.Keyed.key s.root).name

/-- What an order clause reads from a matching row is the value of a cell that is not null. -/
theorem sortKey_eq (hdb : db.IsSound) (h : Simulates root depth s m)
    (hpresent : s.SortsPresent db)
    (hrecord : ∀ row ∈ db.rows root, Mirrors db depth root row (record row)) {row : Row}
    (hrow : row ∈ (db.rows root).filter (s.keeps db)) {c : ColumnRef × Direction}
    (hc : c ∈ s.order) {d : Value × Direction} (hcd : OrdersAlike root depth s.joins c d) :
    attributeOf d.1 (record row) = .ok (sortKey d.1 (record row)) ∧
      sortKey d.1 (record row) = ((db.spread root s.joins row).value c.1).toValue ∧
      c.1.column.affinity.admits ((db.spread root s.joins row).value c.1) = true ∧
      (db.spread root s.joins row).value c.1 ≠ .null := by
  obtain ⟨path, hname, hreads, -⟩ := hcd
  have hrow' := List.mem_of_mem_filter hrow
  obtain ⟨hadmits, hvalue⟩ := hreads.value hdb hrow' (hrecord row hrow')
  have hread : attributeOf d.1 (record row) = .ok ((record row).resolve path) := by
    rw [attributeOf, Value.textFor_of_text? hname]
    rfl
  refine ⟨attributeOf_eq_sortKey hread, ?_, hadmits, ?_⟩
  · rw [← hvalue, sortKey, hread]
    rfl
  · refine hpresent _ ?_ c hc
    rw [h.restricted hdb]
    exact List.mem_map_of_mem hrow

/-- The matching records can be sorted by every clause. -/
theorem sortable_matching (hdb : db.IsSound) (h : Simulates root depth s m)
    (hpresent : s.SortsPresent db)
    (hrecord : ∀ row ∈ db.rows root, Mirrors db depth root row (record row)) :
    ∀ d ∈ m.ordering, Sortable d (((db.rows root).filter (s.keeps db)).map record) := by
  intro d hd
  obtain ⟨c, hc, hcd⟩ := exists_of_forall₂ h.order.flip hd
  have hkey {row : Row} (hrow : row ∈ (db.rows root).filter (s.keeps db)) :=
    sortKey_eq hdb h hpresent hrecord hrow hc hcd
  refine sortable_of_sameKind (fun item hitem => ?_) fun v hv w hw => ?_
  · obtain ⟨row, hrow, rfl⟩ := List.mem_map.mp hitem
    exact ⟨_, (hkey hrow).1⟩
  · obtain ⟨p, hp, rfl⟩ := List.mem_map.mp hv
    obtain ⟨q, hq, rfl⟩ := List.mem_map.mp hw
    obtain ⟨-, hpkey, hpadmits, hppresent⟩ := hkey hp
    obtain ⟨-, hqkey, hqadmits, hqpresent⟩ := hkey hq
    rw [hpkey, hqkey]
    exact sameKind_toValue hpadmits hqadmits hppresent hqpresent

/-- Matching rows stand as their records do. -/
theorem orderLe_matching (hdb : db.IsSound) (h : Simulates root depth s m)
    (hpresent : s.SortsPresent db)
    (hrecord : ∀ row ∈ db.rows root, Mirrors db depth root row (record row)) {p q : Row}
    (hp : p ∈ (db.rows root).filter (s.keeps db)) (hq : q ∈ (db.rows root).filter (s.keeps db)) :
    orderLe m.ordering (record p) (record q) =
      (compareRows s.order (db.spread root s.joins p) (db.spread root s.joins q)).isLE := by
  have hsame : ∀ {order : List (ColumnRef × Direction)} {ordering : List (Value × Direction)},
      List.Forall₂ (OrdersAlike root depth s.joins) order ordering → order ⊆ s.order →
      List.Forall₂ (SameOrder (db.spread root s.joins p) (db.spread root s.joins q) (record p)
        (record q)) order ordering := by
    intro order ordering halike hsub
    induction halike with
    | nil => exact .nil
    | @cons c d order ordering hcd _ ih =>
      obtain ⟨hc, hrest⟩ := List.cons_subset.mp hsub
      obtain ⟨-, hpkey, hpadmits, hppresent⟩ := sortKey_eq hdb h hpresent hrecord hp hc hcd
      obtain ⟨-, hqkey, hqadmits, hqpresent⟩ := sortKey_eq hdb h hpresent hrecord hq hc hcd
      have hdirection : c.2 = d.2 := hcd.choose_spec.2.2
      exact .cons (sameOrder_of_cells hdirection hpkey hqkey hpadmits hqadmits hppresent
        hqpresent) (ih hrest)
  exact orderLe_eq_isLE (hsame h.order (List.Subset.refl _))

theorem toValue_injective {x y : Cell} (h : x.toValue = y.toValue) : x = y := by
  cases x <;> cases y <;> simp_all [Cell.toValue]

theorem eq_of_key (hdb : db.IsSound) {p q : Row} (hp : p ∈ db.rows root) (hq : q ∈ db.rows root)
    (hkey : p.cell (Schema.Keyed.key root).name = q.cell (Schema.Keyed.key root).name) :
    p = q := by
  have hsymm : Std.Symm fun a b : Row =>
      a.cell (Schema.Keyed.key root).name ≠ b.cell (Schema.Keyed.key root).name :=
    ⟨fun _ _ hab => hab.symm⟩
  by_contra hne
  exact List.Pairwise.forall (hdb.distinct root) hp hq hne hkey

/-- **No two matching records tie** in an order that contains the key. -/
theorem eq_of_orderLe (hdb : db.IsSound) (h : Simulates root depth s m)
    (hpresent : s.SortsPresent db) (hordered : s.OrdersByKey)
    (hrecord : ∀ row ∈ db.rows root, Mirrors db depth root row (record row)) {p q : Row}
    (hp : p ∈ (db.rows root).filter (s.keeps db)) (hq : q ∈ (db.rows root).filter (s.keeps db))
    (hpq : orderLe m.ordering (record p) (record q) = true)
    (hqp : orderLe m.ordering (record q) (record p) = true) : p = q := by
  obtain ⟨c, hc, hroot, hname⟩ := hordered
  obtain ⟨d, hd, hcd⟩ := exists_of_forall₂ h.order hc
  obtain ⟨-, hpkey, hpadmits, hppresent⟩ := sortKey_eq hdb h hpresent hrecord hp hc hcd
  obtain ⟨-, hqkey, hqadmits, hqpresent⟩ := sortKey_eq hdb h hpresent hrecord hq hc hcd
  have hkind : Value.SameKind (sortKey d.1 (record p)) (sortKey d.1 (record q)) := by
    rw [hpkey, hqkey]
    exact sameKind_toValue hpadmits hqadmits hppresent hqpresent
  obtain ⟨hle, hge⟩ := clauseLe_of_orderLe hpq hqp d hd
  have hsame := sortKey_eq_of_clauseLe hkind hle hge
  have hcell (row : Row) : (db.spread root s.joins row).value c.1 =
      row.cell (Schema.Keyed.key root).name := by
    rw [JoinedRow.value, hroot, cell_spread List.mem_cons_self, hname, h.root_eq]
    rfl
  rw [hpkey, hqkey, hcell, hcell] at hsame
  exact eq_of_key hdb (List.mem_of_mem_filter hp) (List.mem_of_mem_filter hq)
    (toValue_injective hsame)

/-! ## The same records -/

/-- The matching rows as they stand in order. -/
def arranged (db : Database E) (root : E) (s : Statement E) (ordering : List (Value × Direction))
    (record : Row → Value) : List Row :=
  ((db.rows root).filter (s.keeps db)).mergeSort fun p q => orderLe ordering (record p) (record q)

/-- The statement puts the matching rows in order. -/
theorem Simulates.ordered (hdb : db.IsSound) (h : Simulates root depth s m)
    (hpresent : s.SortsPresent db)
    (hrecord : ∀ row ∈ db.rows root, Mirrors db depth root row (record row)) :
    s.ordered db = (arranged db root s m.ordering record).map (db.spread root s.joins) := by
  unfold Statement.ordered arranged
  rw [h.restricted hdb]
  exact (List.map_mergeSort fun p hp q hq =>
    orderLe_matching hdb h hpresent hrecord hp hq).symm

/-- **A database has no choice**: if its order contains the key, the matching rows have one
arrangement in order, whatever order it finds them in. -/
theorem Simulates.eq_ordered (hdb : db.IsSound) (h : Simulates root depth s m)
    (hpresent : s.SortsPresent db) (hordered : s.OrdersByKey)
    (hrecord : ∀ row ∈ db.rows root, Mirrors db depth root row (record row))
    {found : List JoinedRow} (hperm : found.Perm (s.restricted db))
    (hsorted : found.Pairwise fun a b => (compareRows s.order a b).isLE = true) :
    found = s.ordered db := by
  have hle {p q : Row} (hp : p ∈ (db.rows root).filter (s.keeps db))
      (hq : q ∈ (db.rows root).filter (s.keeps db)) :=
    orderLe_matching hdb h hpresent hrecord hp hq
  have hranks : Stable.Ranks (fun a b => (compareRows s.order a b).isLE) (s.restricted db) := by
    rw [h.restricted hdb, Stable.ranks_map_iff]
    exact (Stable.ranks_map_iff.mp (ranks_orderLe (sortable_matching hdb h hpresent
      hrecord))).congr fun p hp q hq => hle hp hq
  refine hranks.eq_mergeSort ?_ hperm hsorted
  rw [h.restricted hdb]
  intro a ha b hb hab hba
  obtain ⟨p, hp, rfl⟩ := List.mem_map.mp ha
  obtain ⟨q, hq, rfl⟩ := List.mem_map.mp hb
  rw [← hle hp hq] at hab
  rw [← hle hq hp] at hba
  rw [eq_of_orderLe hdb h hpresent hordered hrecord hp hq hab hba]

/-- The collection in memory puts the matching records in the same order, however the records
stood. -/
theorem Simulates.sorted (hdb : db.IsSound) (h : Simulates root depth s m)
    (hpresent : s.SortsPresent db) (hordered : s.OrdersByKey)
    (hrecord : ∀ row ∈ db.rows root, Mirrors db depth root row (record row))
    (hrows : rows.Perm (db.rows root)) (hitems : m.items = rows.map record) :
    m.sorted = .ok ((arranged db root s m.ordering record).map record) := by
  have hmem : ∀ row ∈ rows, row ∈ db.rows root := fun row hrow => hrows.mem_iff.mp hrow
  have hperm := hrows.filter (s.keeps db)
  have hsortable := sortable_matching hdb h hpresent hrecord
  have hranks := Stable.ranks_map_iff.mp (ranks_orderLe hsortable)
  have harranged : (rows.filter (s.keeps db)).mergeSort
      (fun p q => orderLe m.ordering (record p) (record q)) = arranged db root s m.ordering record :=
    hranks.mergeSort_eq_of_perm
      (fun p hp q hq => eq_of_orderLe hdb h hpresent hordered hrecord hp hq) hperm
  have hmap : ((rows.filter (s.keeps db)).mergeSort
        fun p q => orderLe m.ordering (record p) (record q)).map record =
      ((rows.filter (s.keeps db)).map record).mergeSort (orderLe m.ordering) :=
    List.map_mergeSort fun _ _ _ _ => rfl
  unfold Memory.sorted
  rw [h.matching hdb hmem (fun row hrow => hrecord row (hmem row hrow)) hitems]
  show m.ordering.foldrM sortByClause ((rows.filter (s.keeps db)).map record) = _
  rw [foldrM_sortByClause fun d hd => (hsortable d hd).perm (hperm.map record).symm, ← hmap,
    harranged]

/-- Both count the same number of records. -/
theorem Simulates.count (hdb : db.IsSound) (h : Simulates root depth s m)
    (hrecord : ∀ row ∈ db.rows root, Mirrors db depth root row (record row))
    (hrows : rows.Perm (db.rows root)) (hitems : m.items = rows.map record) :
    ∃ n, s.count db = .ok n ∧ m.size = .ok n := by
  have hmem : ∀ row ∈ rows, row ∈ db.rows root := fun row hrow => hrows.mem_iff.mp hrow
  refine ⟨((db.rows root).filter (s.keeps db)).length, ?_, ?_⟩
  · rw [Statement.count_of_isBindable h.isBindable, h.restricted hdb, List.length_map]
  · unfold Memory.size
    rw [h.matching hdb hmem (fun row hrow => hrecord row (hmem row hrow)) hitems,
      ← (hrows.filter (s.keeps db)).length_eq, ← List.length_map record]
    rfl

/-- Both select the same rows: the one as they are, and the other as records. -/
theorem Simulates.selected (hdb : db.IsSound) (h : Simulates root depth s m)
    (hpresent : s.SortsPresent db) (hordered : s.OrdersByKey)
    (hrecord : ∀ row ∈ db.rows root, Mirrors db depth root row (record row))
    (hrows : rows.Perm (db.rows root)) (hitems : m.items = rows.map record) :
    ∃ selected : List Row, selected ⊆ db.rows root ∧ s.rows db = .ok selected ∧
      m.rows = .ok (selected.map record) := by
  refine ⟨Statement.cut s.limit s.offset (arranged db root s m.ordering record), ?_, ?_, ?_⟩
  · intro row hrow
    exact List.mem_of_mem_filter (List.mem_mergeSort.mp (Statement.mem_of_mem_cut hrow))
  · have hroot : (fun row : JoinedRow => row.root) ∘ db.spread root s.joins = some := by
      funext row
      exact root_spread s.joins
    rw [Statement.rows_of_isBindable h.isBindable h.window, h.ordered hdb hpresent hrecord,
      Statement.cut_map, List.filterMap_map, hroot, List.filterMap_some]
  · rw [rows_of_cut h.limit h.offset h.window,
      h.sorted hdb hpresent hordered hrecord hrows hitems]
    exact congrArg Except.ok (Statement.cut_map record _)

/-- A row and its record have the same key. -/
theorem field_key {row : Row} {v : Value} (hrecord : Mirrors db depth root row v) :
    v.field (Schema.Keyed.key root).name = row.toValue.field (Schema.Keyed.key root).name := by
  have hsome : (Schema.column? root (Schema.Keyed.key root).name).isSome :=
    List.find?_isSome.mpr ⟨_, Schema.Keyed.key_mem root, beq_self_eq_true _⟩
  obtain ⟨c, hc⟩ := Option.isSome_iff_exists.mp hsome
  rw [hrecord.hasCells _ c hc, field_toValue]

end

/-! ## The sample schema -/

instance : Schema.Keyed Entity where
  key _ := Entity.key
  key_mem model := by cases model <;> decide
  own_mem model := by cases model <;> decide
  other_eq_key model := by cases model <;> decide

theorem distinctNames_entity : Schema.DistinctNames Entity := by
  intro model name h
  obtain ⟨c, hc⟩ := Option.isSome_iff_exists.mp h
  obtain ⟨hmem, rfl⟩ := Schema.column?_eq_some hc
  revert c
  cases model <;> decide

theorem isSound_sample : Entity.sample.IsSound where
  admits model := by cases model <;> decide
  distinct model := by cases model <;> decide

/-- People of two towns above an age whose mentor has no address or is not there, by town. -/
def sampleCalls : List Call :=
  [.leftJoin [.str "mentor"],
    .restrict []
      [("mentor.address_id", .null), ("address.city", .list [.str "Athens", .str "Patras"])],
    .compare (.str "age") (.str "gt") (.int 20),
    .orderByClauses [⟨"address.city", .asc⟩, ⟨"id", .desc⟩],
    .limit (.int 1),
    .offset (.int 1)]

/-- What the calls make of the statement that selects everyone. -/
def sampleStatement : Statement Entity where
  root := .user
  aliases := [(["mentor"], ⟨["mentor"], .user⟩), (["address"], ⟨["address"], .address⟩)]
  joins := [⟨[], ["mentor"], Entity.toOne .user "mentor_id"⟩,
    ⟨[], ["address"], Entity.toOne .address "address_id"⟩]
  restrictions := [.null ⟨["mentor"], ⟨"address_id", .integer⟩⟩ false,
    .among ⟨["address"], ⟨"city", .text⟩⟩ [.str "Athens", .str "Patras"],
    .compare ⟨[], ⟨"age", .integer⟩⟩ .gt (.int 20)]
  order := [(⟨["address"], ⟨"city", .text⟩⟩, .asc), (⟨[], Entity.key⟩, .desc)]
  limit := some 1
  offset := some 1

theorem fits_sampleCalls : ∀ call ∈ sampleCalls, CallFits Entity.user 1 call := by
  have hnames {path : String} {ref : ColumnRef}
      (h : Schema.columnAt? Entity.user path = some ref) (hshort : ref.path.length ≤ 1) :
      Names Entity.user 1 path ref := ⟨h, hshort⟩
  simp only [sampleCalls, List.forall_mem_cons]
  refine ⟨?_, ?_, ?_, ?_, ?_, ?_, fun call hcall => absurd hcall List.not_mem_nil⟩
  · exact List.forall_mem_singleton.mpr ⟨"mentor", Entity.user, rfl, rfl⟩
  · refine ⟨rfl, by decide, ?_⟩
    simp only [List.forall_mem_cons]
    exact ⟨⟨⟨["mentor"], ⟨"address_id", .integer⟩⟩, hnames rfl (by decide), rfl⟩,
      ⟨⟨["address"], ⟨"city", .text⟩⟩, hnames rfl (by decide), rfl⟩,
      fun e he => absurd he List.not_mem_nil⟩
  · exact ⟨⟨.above, rfl⟩, "age", ⟨[], ⟨"age", .integer⟩⟩, rfl, hnames rfl (by decide), by decide⟩
  · show ∀ clause ∈ _, ClauseFits Entity.user 1 clause
    simp only [List.map_cons, List.map_nil, List.forall_mem_cons]
    exact ⟨⟨_, _, _, ⟨["address"], ⟨"city", .text⟩⟩, readClause_toValue _, rfl,
        hnames rfl (by decide)⟩,
      ⟨_, _, _, ⟨[], Entity.key⟩, readClause_toValue _, rfl, hnames rfl (by decide)⟩,
      fun e he => absurd he List.not_mem_nil⟩
  · exact ⟨1, rfl, by decide, by decide⟩
  · exact ⟨1, rfl, by decide, by decide⟩

theorem ordersByKey_sampleStatement : sampleStatement.OrdersByKey :=
  ⟨(⟨[], Entity.key⟩, .desc), by decide, rfl, rfl⟩

theorem sortsPresent_sampleStatement : sampleStatement.SortsPresent Entity.sample := by
  intro row hrow clause hclause
  revert clause
  revert row
  decide

/-! ## The same keys -/

section

variable [Schema.Keyed E] {db : Database E} {root : E} {depth : Nat}
  {rows : List Row} {record : Row → Value}

/-- **A database and a collection in memory agree.** The same calls succeed on a statement over
the database and on its rows as nested records, and both count the same number of records. If the
final order contains the key and nothing that is sorted by is null in a matching row, both return
the records of the same keys in the same order. -/
theorem collections_agree (hdb : db.IsSound)
    (hrecord : ∀ row ∈ db.rows root, Mirrors db depth root row (record row))
    (hrows : rows.Perm (db.rows root)) {calls : List Call}
    (hfits : ∀ call ∈ calls, CallFits root depth call) :
    ∃ (q : TableQuery E) (m : Memory),
      calls.foldlM (fun q call => TableQuery.perform call q) (TableQuery.all db root) = .ok q ∧
      calls.foldlM (fun m call => Memory.perform call m) { items := rows.map record } = .ok m ∧
      (∃ n, q.statement.count q.database = .ok n ∧ m.size = .ok n) ∧
      (q.statement.OrdersByKey → q.statement.SortsPresent q.database →
        ∃ found records, q.rows = .ok found ∧ m.rows = .ok records ∧
          found.map (Value.field (Schema.Keyed.key root).name) =
            records.map (Value.field (Schema.Keyed.key root).name)) := by
  obtain ⟨s, m, hq, hm, h, hitems⟩ :=
    simulates_calls db hfits (simulates_all root depth (rows.map record))
  refine ⟨⟨db, s⟩, m, hq, hm, h.count hdb hrecord hrows hitems, fun hordered hpresent => ?_⟩
  obtain ⟨selected, hsub, hfound, hrecords⟩ :=
    h.selected hdb hpresent hordered hrecord hrows hitems
  refine ⟨selected.map Row.toValue, selected.map record, ?_, hrecords, ?_⟩
  · unfold TableQuery.rows
    rw [hfound]
    rfl
  · rw [List.map_map, List.map_map]
    refine List.map_congr_left fun row hrow => ?_
    exact (field_key (hrecord row (hsub hrow))).symm

end

theorem collections_agree_on_sample :
    ∃ (q : TableQuery Entity) (m : Memory),
      sampleCalls.foldlM (fun q call => TableQuery.perform call q)
        (TableQuery.all Entity.sample .user) = .ok q ∧
      sampleCalls.foldlM (fun m call => Memory.perform call m)
        { items := (Entity.sample.rows .user).map (nest Entity.sample 1 .user) } = .ok m ∧
      (∃ n, q.statement.count q.database = .ok n ∧ m.size = .ok n) ∧
      ∃ found records, q.rows = .ok found ∧ m.rows = .ok records ∧
        found.map (Value.field "id") = records.map (Value.field "id") := by
  obtain ⟨q, m, hq, hm, hcount, hrows⟩ := collections_agree isSound_sample
    (fun row _ => mirrors_nest distinctNames_entity Entity.sample 1 .user row) (List.Perm.refl _)
    fits_sampleCalls
  have hstatement : sampleCalls.foldlM (fun q call => TableQuery.perform call q)
      (TableQuery.all Entity.sample .user) = .ok ⟨Entity.sample, sampleStatement⟩ := rfl
  refine ⟨q, m, hq, hm, hcount, ?_⟩
  rw [hstatement] at hq
  cases hq
  exact hrows ordersByKey_sampleStatement sortsPresent_sampleStatement

end ResourceQuery.Sql
