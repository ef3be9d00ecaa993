import ResourceQuery.Proofs.Collection.LexicographicOrder
import ResourceQuery.Proofs.Sql.ToOneJoins

/-!
# Looking up the first match

A collection is asked for the first record that satisfies equations. A statement is narrowed by
them, and the first of its rows is the record. A collection in memory is narrowed in the same way,
but does not sort: it gives the first match in the order in which its records are stored. This is
the first record that it would list only if no other match stands before it.

Headlines:
* **`LooksUp`**: what a lookup has to do with narrowing, counting and listing.
* **`firstOr_eq_missing_iff`**: a lookup fails for want of a record exactly if there is none.
* **`Memory.looksUp`**, **`Memory.first_of_all_iff`**: lookups in memory, and when they give the first
  record that is listed.
* **`Statement.rows_limit_one`**, **`TableQuery.looksUp`**: lookups in a database.
* **`findBy_first_match`**: all of this at once.
-/

namespace ResourceQuery

/-! ## Lookups -/

/-- The failure of a lookup that finds no record. -/
def notFound (criteria : List (String × Value)) (model : Value) : QueryError :=
  .recordNotFound (criteria.map fun (k, v) => (.str k, v)) model

/-- The first of some records, or else a failure. -/
def firstOr (missing : QueryError) : List Value → Except QueryError Value
  | record :: _ => .ok record
  | [] => .error missing

/-- A lookup next to the collection that is narrowed by the same equations. It is refused as
narrowing is; else it gives the first record that the narrowed collection lists after `turned`, or
fails as listing does. As many records are listed then as the narrowed collection counts, so the
lookup fails for want of a record exactly if none is counted, unless counting fails so itself. -/
structure LooksUp {C : Type} [Collection C] (c : C) (criteria : List (String × Value))
    (missing : QueryError) (turned : C → C) : Prop where
  refused : ∀ e, (Collection.perform (.restrict [] criteria) c).result = .error e →
    (Collection.findBy criteria c).result = .error e
  found : ∀ narrowed, (Collection.perform (.restrict [] criteria) c).result = .ok narrowed →
    (Collection.findBy criteria c).result =
      (Collection.all (turned narrowed)).result >>= firstOr missing
  counted : ∀ narrowed, (Collection.perform (.restrict [] criteria) c).result = .ok narrowed →
    (Collection.count narrowed).result =
      (Collection.all (turned narrowed)).result.map fun records => (records.length : Int)
  missing_iff : ∀ narrowed, (Collection.perform (.restrict [] criteria) c).result = .ok narrowed →
    ((Collection.findBy criteria c).result = .error missing ↔
      (Collection.count narrowed).result = .ok 0 ∨
        (Collection.count narrowed).result = .error missing)

/-- **The first record is missing** exactly if there are none, or if listing them fails so itself. -/
theorem firstOr_eq_missing_iff {missing : QueryError} {listed : Except QueryError (List Value)} :
    (listed >>= firstOr missing) = .error missing ↔
      listed.map (fun records => (records.length : Int)) = .ok 0 ∨
        listed.map (fun records => (records.length : Int)) = .error missing := by
  cases listed with
  | error e => simp [bind, Except.bind, Except.map]
  | ok records =>
    cases records with
    | nil => simp [bind, Except.bind, Except.map, firstOr]
    | cons record rest =>
      have hlength : ((rest.length : Int) + 1) ≠ 0 := by omega
      simp [bind, Except.bind, Except.map, firstOr, hlength]

theorem LooksUp.of_listing {C : Type} [Collection C] {c : C} {criteria : List (String × Value)}
    {missing : QueryError} {turned : C → C}
    (refused : ∀ e, (Collection.perform (.restrict [] criteria) c).result = .error e →
      (Collection.findBy criteria c).result = .error e)
    (listing : ∀ narrowed, (Collection.perform (.restrict [] criteria) c).result = .ok narrowed →
      (Collection.findBy criteria c).result =
        (Collection.all (turned narrowed)).result >>= firstOr missing ∧
      (Collection.count narrowed).result =
        (Collection.all (turned narrowed)).result.map fun records => (records.length : Int)) :
    LooksUp c criteria missing turned where
  refused := refused
  found narrowed h := (listing narrowed h).1
  counted narrowed h := (listing narrowed h).2
  missing_iff narrowed h := by
    obtain ⟨hfound, hcounted⟩ := listing narrowed h
    rw [hfound, hcounted]
    exact firstOr_eq_missing_iff

/-! ## In memory -/

namespace Memory

variable {m : Memory} {criteria : List (String × Value)}

/-- The collection with its records in the order in which they are stored. -/
def inStorageOrder (m : Memory) : Memory := { m with ordering := [] }

theorem rows_of_no_window (hlimit : m.limit = .null) (hoffset : m.offset = .null) :
    m.rows = m.sorted := by
  have hsame : m.unwindowed = m := by
    obtain ⟨items, predicates, ordering, joins, includes, limit, offset⟩ := m
    cases hlimit
    cases hoffset
    rfl
  rw [← rows_unwindowed, hsame]

theorem rows_inStorageOrder (hlimit : m.limit = .null) (hoffset : m.offset = .null) :
    m.inStorageOrder.rows = m.matching := by
  have hrows : m.inStorageOrder.rows = m.inStorageOrder.sorted := rows_of_no_window hlimit hoffset
  rw [hrows]
  show (m.matching >>= fun records => .ok records) = m.matching
  cases m.matching <;> rfl

theorem window_of_restrict {narrowed : Memory} (h : m.restrict [] criteria = .ok narrowed) :
    narrowed.limit = m.limit ∧ narrowed.offset = m.offset := by
  obtain ⟨-, rfl⟩ := restrict_eq_ok_iff.mp h
  exact ⟨rfl, rfl⟩

/-- **A lookup in memory** gives the first match in the order in which the records are stored. -/
theorem looksUp (hlimit : m.limit = .null) (hoffset : m.offset = .null) :
    LooksUp m criteria (notFound criteria .null) inStorageOrder := by
  refine .of_listing (fun e h => ?_) fun narrowed h => ?_
  · have hrestrict : m.restrict [] criteria = .error e := h
    show m.findBy criteria = .error e
    rw [findBy, hrestrict]
    rfl
  · have hrestrict : m.restrict [] criteria = .ok narrowed := h
    obtain ⟨hlimit', hoffset'⟩ := window_of_restrict hrestrict
    have hrows := rows_inStorageOrder (hlimit'.trans hlimit) (hoffset'.trans hoffset)
    show m.findBy criteria = narrowed.inStorageOrder.rows >>= _ ∧
      narrowed.size = narrowed.inStorageOrder.rows.map _
    rw [hrows, findBy, hrestrict, size]
    simp only [bind, Except.bind]
    cases narrowed.matching with
    | error e => exact ⟨rfl, rfl⟩
    | ok records => cases records <;> exact ⟨rfl, rfl⟩

/-- **The first stored record is listed first** exactly if no other one stands before it. -/
theorem first_of_all_iff {ordering : List OrderClause} {record : Value} {rest : List Value}
    (hlimit : m.limit = .null) (hoffset : m.offset = .null)
    (hordering : m.ordering = clausesOf ordering) (hstored : m.inStorageOrder.rows = .ok (record :: rest))
    (hcompare : ∀ clause ∈ ordering,
      ((record :: rest).map (·.resolve clause.name)).Pairwise Placed) :
    ∃ first others, m.rows = .ok (first :: others) ∧
      (first = record ↔ ∀ other ∈ rest, lexPlace? ordering other record ≠ some .lt) := by
  rw [rows_inStorageOrder hlimit hoffset] at hstored
  have hsorted : m.rows = .ok ((record :: rest).mergeSort (orderLe (clausesOf ordering))) := by
    rw [rows_of_no_window hlimit hoffset, sorted, hstored, hordering]
    exact foldrM_sortByClause_of_orders (orders_of_pairwise hcompare)
  have hranks := ranks_orderLe_of_orders (orders_of_pairwise hcompare)
  have hhead := hranks.head?_mergeSort_eq_iff
  cases hlist : (record :: rest).mergeSort (orderLe (clausesOf ordering)) with
  | nil =>
    have hmem : record ∈ (record :: rest).mergeSort (orderLe (clausesOf ordering)) :=
      List.mem_mergeSort.mpr List.mem_cons_self
    rw [hlist] at hmem
    cases hmem
  | cons first others =>
    rw [hlist, List.head?_cons, Option.some.injEq] at hhead
    refine ⟨first, others, hlist ▸ hsorted, hhead.trans (forall₂_congr fun other hother => ?_)⟩
    have hpair := (List.pairwise_cons.mp (pairwise_comparableBy hcompare)).1 other hother
    obtain ⟨o, -, hplace, hle, -⟩ := exists_lexPlace? hpair
    rw [hle, hplace]
    cases o <;> simp

end Memory

/-! ## In a database -/

namespace Sql

variable {E : Type} [Schema E]

namespace Statement

variable {s : Statement E} {db : Database E}

omit [Schema E] in
theorem prepared_limit (s : Statement E) (limit : Option Int) :
    { s with limit }.prepared = s.prepared.map fun p => { p with limit } := by
  unfold prepared
  cases (conditions s.restrictions).mapM Restriction.prepared <;> rfl

omit [Schema E] in
theorem filterMap_root_take_one {rows : List JoinedRow}
    (h : ∀ row ∈ rows, ∃ r rest, row = ([], some r) :: rest) :
    (rows.take 1).filterMap (·.root) = (rows.filterMap (·.root)).take 1 := by
  cases rows with
  | nil => rfl
  | cons row rows =>
    obtain ⟨r, rest, rfl⟩ := h _ List.mem_cons_self
    rfl

/-- **A limit of one** selects the first of the rows. -/
theorem rows_limit_one (hlimit : s.limit = none) (hoffset : s.offset = none) :
    { s with limit := some 1 }.rows db = (s.rows db).map (List.take 1) := by
  unfold rows
  rw [prepared_limit]
  cases hprepared : s.prepared with
  | error e => rfl
  | ok p =>
    obtain ⟨hlimit', hoffset'⟩ := window_of_prepared hprepared
    rw [hlimit] at hlimit'
    rw [hoffset] at hoffset'
    have hparameters := parameters_of_no_window hlimit' hoffset'
    have hlimited : { p with limit := some 1 }.parameters = p.operands ++ [.int 1, .int 0] := by
      rw [parameters, windowParameters, hoffset']
      rfl
    have hbounds : [Value.int 1, .int 0].mapM bindParameter = .ok [.int 1, .int 0] := by rfl
    simp only [bind, Except.bind, Except.map, hparameters, hlimited, List.mapM_append, hbounds]
    cases p.operands.mapM bindParameter with
    | error e => rfl
    | ok cells =>
      simp only [pure, Except.pure, hlimit', hoffset']
      exact congrArg Except.ok (filterMap_root_take_one fun row hrow =>
        (exists_of_mem_joined (List.mem_of_mem_filter (List.mem_mergeSort.mp hrow))).1)

end Statement

namespace TableQuery

variable {q : TableQuery E} {criteria : List (String × Value)}

/-- **A lookup in a database** gives the first row of the narrowed statement. -/
theorem looksUp (hlimit : q.statement.limit = none) (hoffset : q.statement.offset = none) :
    LooksUp q criteria (notFound criteria (.str (Schema.name q.statement.root))) id := by
  refine .of_listing (fun e h => ?_) fun narrowed h => ?_
  · have hperform : (do return { q with statement := ← q.statement.narrow [] criteria } :
        Except QueryError (TableQuery E)) = .error e := h
    show q.findBy criteria = .error e
    rw [findBy]
    cases hnarrow : q.statement.narrow [] criteria with
    | error e' =>
      rw [hnarrow] at hperform
      cases hperform
      rfl
    | ok s =>
      rw [hnarrow] at hperform
      cases hperform
  · obtain ⟨s, hnarrow, hs⟩ := Sorting.eq_ok_of_bind (h : q.perform (.restrict [] criteria) = .ok _)
    cases hs
    have hbinds := BindsBy.of_perform hnarrow
    have hlimit' : s.limit = none := hbinds.limit_eq.trans hlimit
    have hoffset' : s.offset = none := hbinds.offset_eq.trans hoffset
    have hrestrict : q.statement.narrow [] criteria = .ok s := hnarrow
    show q.findBy criteria = TableQuery.rows ⟨q.database, s⟩ >>= _ ∧
      s.count q.database = (TableQuery.rows ⟨q.database, s⟩).map _
    rw [findBy, hrestrict, rows_eq_map, Statement.count_eq_length hlimit' hoffset']
    simp only [bind, Except.bind]
    rw [Statement.rows_limit_one hlimit' hoffset']
    cases s.rows q.database with
    | error e => exact ⟨rfl, rfl⟩
    | ok rows =>
      refine ⟨by cases rows <;> rfl, ?_⟩
      exact congrArg (fun n : Nat => Except.ok (n : Int)) (List.length_map _).symm

end TableQuery

end Sql

open Sql in
/-- **Looking up the first match.** A lookup is refused as narrowing by the same equations is. Else,
without a window, it fails for want of a record exactly if the narrowed collection counts none. A
lookup in a database gives the first record that the narrowed collection lists. A lookup in memory
gives the first match in the order in which the records are stored; where the values of every clause
compare, this is the first one that is listed exactly if no other match stands before it. -/
theorem findBy_first_match {E : Type} [Schema E] (criteria : List (String × Value)) :
    (∀ m : Memory, m.limit = .null → m.offset = .null →
      LooksUp m criteria (notFound criteria .null) Memory.inStorageOrder ∧
      ∀ narrowed ordering record rest,
        (Collection.perform (.restrict [] criteria) m).result = .ok narrowed →
        m.ordering = Memory.clausesOf ordering →
        (Collection.all narrowed.inStorageOrder).result = .ok (record :: rest) →
        (∀ clause ∈ ordering,
          ((record :: rest).map (·.resolve (OrderClause.name clause))).Pairwise Placed) →
        (Collection.findBy criteria m).result = .ok record ∧
        ∃ first others, (Collection.all narrowed).result = .ok (first :: others) ∧
          (first = record ↔ ∀ other ∈ rest, lexPlace? ordering other record ≠ some .lt)) ∧
    ∀ q : TableQuery E, q.statement.limit = none → q.statement.offset = none →
      LooksUp q criteria (notFound criteria (.str (Schema.name q.statement.root))) id := by
  refine ⟨fun m hlimit hoffset => ?_, fun q => TableQuery.looksUp⟩
  have hlookup : LooksUp m criteria (notFound criteria .null) Memory.inStorageOrder :=
    Memory.looksUp hlimit hoffset
  refine ⟨hlookup, fun narrowed ordering record rest hnarrowed hordering hstored hcompare => ?_⟩
  obtain ⟨-, rfl⟩ := Memory.restrict_eq_ok_iff.mp hnarrowed
  refine ⟨?_, Memory.first_of_all_iff hlimit hoffset hordering hstored hcompare⟩
  rw [hlookup.found _ hnarrowed, hstored]
  rfl

/-- The members of a family. -/
def familyName : List (String × Value) := [("last_name", .str "Doe")]

/-- The younger one. -/
def youngerDoe : Value := .ofFields [("id", .int 1), ("last_name", .str "Doe"), ("age", .int 34)]

/-- The older one. -/
def olderDoe : Value := .ofFields [("id", .int 2), ("last_name", .str "Doe"), ("age", .int 41)]

/-- Both in memory, by descending ages. -/
def oldestStored : Memory :=
  { items := [youngerDoe, olderDoe], ordering := Memory.clausesOf [⟨"age", .desc⟩] }

open Sql in
/-- The people of the sample database, by descending ages. -/
def oldestSelected : TableQuery Entity :=
  ⟨Entity.sample, { root := .user, order := [(⟨[], ⟨"age", .integer⟩⟩, .desc)] }⟩

open Sql in
/-- The members of the family among them. -/
def oldestDoes : Statement Entity :=
  { oldestSelected.statement with
    restrictions := [.compare ⟨[], ⟨"last_name", .text⟩⟩ .eq (.str "Doe")] }

/-- The older one is listed first and is the one that is looked up in the database, but in memory the
younger one is, who was stored first. -/
theorem findBy_first_match_of_oldest :
    ((Collection.findBy familyName oldestStored).result = .ok youngerDoe ∧
      ∃ narrowed first others,
        (Collection.perform (.restrict [] familyName) oldestStored).result = .ok narrowed ∧
        (Collection.all narrowed).result = .ok (first :: others) ∧ first ≠ youngerDoe) ∧
    ((Collection.findBy familyName oldestSelected).result.map (·.resolve "id") = .ok (.int 2)) := by
  obtain ⟨hmemory, hdatabase⟩ := findBy_first_match (E := Sql.Entity) familyName
  obtain ⟨-, hfirst⟩ := hmemory oldestStored rfl rfl
  have hselected := hdatabase oldestSelected rfl rfl
  have hcompare : ∀ clause ∈ [⟨"age", .desc⟩],
      ([youngerDoe, olderDoe].map (·.resolve (OrderClause.name clause))).Pairwise Placed := by
    intro clause hclause
    rw [List.mem_singleton.mp hclause]
    exact (inLine_of_haveOrder (by decide +kernel)).placed
  obtain ⟨hfound, first, others, hlisted, hiff⟩ :=
    hfirst _ [⟨"age", .desc⟩] youngerDoe [olderDoe] rfl rfl (by with_unfolding_all rfl) hcompare
  have hbefore : lexPlace? [⟨"age", .desc⟩] olderDoe youngerDoe = some .lt := by decide +kernel
  refine ⟨⟨hfound, _, first, others, rfl, hlisted, fun heq => ?_⟩, ?_⟩
  · exact hiff.mp heq olderDoe List.mem_cons_self hbefore
  · have hranks : Stable.Ranks (fun a b => (Sql.compareRows oldestDoes.order a b).isLE)
        (oldestDoes.restricted Sql.Entity.sample) := ⟨by decide +kernel, by decide +kernel⟩
    have hroots : (oldestDoes.ordered Sql.Entity.sample).filterMap (·.root) =
        [Sql.Entity.row .user [.int 2, .text "John", .text "Doe", .int 41, .int 2, .int 1],
          Sql.Entity.row .user [.int 1, .text "Jane", .text "Doe", .int 34, .int 1, .null]] := by
      rw [Sql.Statement.ordered, hranks.mergeSort_eq_of_places (n := 2) (by decide +kernel)
        (.swap 0 1 []) (by decide +kernel)]
      decide +kernel
    have hrows : oldestDoes.rows Sql.Entity.sample =
        .ok ((oldestDoes.ordered Sql.Entity.sample).filterMap (·.root)) := by
      rfl
    rw [hselected.found _ rfl]
    show Except.map _ ((oldestDoes.rows Sql.Entity.sample).map (List.map _) >>= _) = _
    rw [hrows, hroots]
    rfl

end ResourceQuery
