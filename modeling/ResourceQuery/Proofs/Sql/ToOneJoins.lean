import ResourceQuery.Proofs.Sql.Agreement
import ResourceQuery.Proofs.Sql.Parameters
import ResourceQuery.Proofs.Sql.Resolution
import ResourceQuery.Proofs.Value.Comparison

/-!
# Joins to single records keep the selection

A join to the record that a key refers to adds one entry to every row: the record, or nothing. It
goes on from whatever rows there are, those of joins to many records included, so neither the rows
that are selected nor their number change. Counting runs a statement of its own, which selects the
same rows as long as there is no window.

Headlines:
* **`Database.HasUniqueKeys`**: no two records of a model have equal keys, whatever the cells hold.
* **`foldl_extend_of_refersToKey`**: joins to single records behind any others.
* **`Statement.Widens`**: a statement with such joins added.
* **`Statement.exists_selected_of_widens`**: it selects the same rows.
* **`Statement.exists_perform`**: sorting by a related column and joining make such statements.
* **`toOne_joins_keep_selection`**: after any calls without a window.
-/

namespace ResourceQuery.Sql

open Number

/-! ## Unique keys -/

namespace Cell

/-- Equal cells are the same text, or numbers that compare as equal. -/
theorem eq_cases {x y : Cell} (h : x.compare? y = some .eq) :
    (∃ s, x = .text s ∧ y = .text s) ∨
      ∃ p q, x.number? = some p ∧ y.number? = some q ∧ p.compare? q = some .eq := by
  cases x with
  | null => cases h
  | text s =>
    cases y with
    | text t =>
      rw [compare?_text, Option.some.injEq, compare_eq_iff_eq] at h
      exact .inl ⟨s, rfl, h ▸ rfl⟩
    | _ => cases h
  | int i =>
    cases y with
    | int j => exact .inr ⟨_, _, rfl, rfl, h⟩
    | real b => exact .inr ⟨_, _, rfl, rfl, h⟩
    | _ => cases h
  | real a =>
    cases y with
    | int j => exact .inr ⟨_, _, rfl, rfl, h⟩
    | real b => exact .inr ⟨_, _, rfl, rfl, h⟩
    | _ => cases h

theorem compare?_of_numbers {x y : Cell} {p q : Binary64} (hx : x.number? = some p)
    (hy : y.number? = some q) : x.compare? y = p.compare? q := by
  cases x <;> cases y <;> cases hx <;> cases hy <;> rfl

/-- Cells that equal the same cell equal each other. -/
theorem eq_of_eq_of_eq {key x y : Cell} (hx : key.compare? x = some .eq)
    (hy : key.compare? y = some .eq) : x.compare? y = some .eq := by
  rcases eq_cases hx with ⟨s, rfl, rfl⟩ | ⟨p, q, hp, hq, hpq⟩
  · exact hy
  · rcases eq_cases hy with ⟨s, rfl, -⟩ | ⟨p', r, hp', hr, hpr⟩
    · cases hp
    · cases hp.symm.trans hp'
      obtain ⟨a, b, ha, hb, hab⟩ := Binary64.compares_of_compare? hpq
      obtain ⟨a', c, ha', hc, hac⟩ := Binary64.compares_of_compare? hpr
      cases ha.symm.trans ha'
      have hqr : ∃ o, q.compare? r = some o := Value.compare?_isSome
        (fun h => by rw [h] at hb; cases hb) (fun h => by rw [h] at hc; cases hc)
      obtain ⟨o, ho⟩ := hqr
      obtain ⟨b', c', hb', hc', hbc⟩ := Binary64.compares_of_compare? ho
      cases hb.symm.trans hb'
      cases hc.symm.trans hc'
      have heq : b = c := hab.symm.trans hac
      rw [compare?_of_numbers hq hr, ho]
      cases o with
      | eq => rfl
      | lt => exact absurd (heq ▸ hbc) (lt_irrefl b)
      | gt => exact absurd (heq ▸ hbc) (lt_irrefl b)

end Cell

variable {E : Type} [Schema E] [Schema.Keyed E]

namespace Database

variable {db : Database E}

/-- No two records of a model have equal keys. -/
def HasUniqueKeys (db : Database E) : Prop :=
  ∀ model, (db.rows model).Pairwise fun a b =>
    (a.cell (Schema.Keyed.key model).name).compare? (b.cell (Schema.Keyed.key model).name) ≠
      some .eq

/-- Keys that differ are unique where every cell is of the kind of its column. -/
theorem IsSound.hasUniqueKeys (h : db.IsSound) : db.HasUniqueKeys := by
  intro model
  refine (h.distinct model).imp_of_mem fun {a b} ha hb hne heq => hne ?_
  have hkey := Schema.Keyed.key_mem model
  exact Cell.eq_of_compare? (h.admits model a ha _ hkey) (h.admits model b hb _ hkey) heq

end Database

/-! ## Rows and joins -/

/-- A join to the record of the key that it compares with. -/
def Join.RefersToKey (j : Join E) : Prop :=
  j.relationship.other = Schema.Keyed.key j.relationship.target

omit [Schema E] [Schema.Keyed E] in
/-- A row beside the first record that each join relates to it. -/
def beside (db : Database E) (joins : List (Join E)) (row : JoinedRow) : JoinedRow :=
  joins.foldl (fun row j => row ++ [(j.path, (related db j row).head?)]) row

section

variable {db : Database E} {joins : List (Join E)} {row : JoinedRow}

/-- A join to single records adds one entry to a row. -/
theorem extend_of_refersToKey (hdb : db.HasUniqueKeys) {j : Join E} (hj : j.RefersToKey)
    (row : JoinedRow) : extend db j row = [row ++ [(j.path, (related db j row).head?)]] := by
  have hone : related db j row = (related db j row).head?.toList := by
    refine eq_toList_of_forall_eq ((hdb j.relationship.target).filter _)
      fun a ha b hb hne => hne ?_
    obtain ⟨-, ha⟩ := List.mem_filter.mp ha
    obtain ⟨-, hb⟩ := List.mem_filter.mp hb
    rw [beq_iff_eq, hj] at ha hb
    exact Cell.eq_of_eq_of_eq ha hb
  unfold extend
  rw [hone]
  cases (related db j row).head? with
  | none => rfl
  | some r => rfl

/-- **Joins to single records** behind any others neither lose nor repeat a row. -/
theorem foldl_extend_of_refersToKey (hdb : db.HasUniqueKeys) (hjoins : ∀ j ∈ joins, j.RefersToKey)
    (rows : List JoinedRow) :
    joins.foldl (fun rows j => rows.flatMap (extend db j)) rows = rows.map (beside db joins) := by
  induction joins generalizing rows with
  | nil => exact (List.map_id rows).symm
  | cons j rest ih =>
    obtain ⟨hj, hrest⟩ := List.forall_mem_cons.mp hjoins
    have hstep : rows.flatMap (extend db j) =
        rows.map fun row => row ++ [(j.path, (related db j row).head?)] := by
      rw [List.flatMap_congr fun row _ => extend_of_refersToKey hdb hj row]
      exact List.flatMap_pure_eq_map _ _
    rw [List.foldl_cons, ih hrest, hstep, List.map_map]
    rfl

omit [Schema E] [Schema.Keyed E] in
/-- Joins only add to a row. -/
theorem prefix_beside (db : Database E) (joins : List (Join E)) (row : JoinedRow) :
    row <+: beside db joins row := by
  induction joins generalizing row with
  | nil => exact List.prefix_refl row
  | cons j rest ih => exact (List.prefix_append _ _).trans (ih _)

omit [Schema E] [Schema.Keyed E] in
/-- A row of a statement starts with a row of the root and has an entry for each join. -/
theorem exists_of_mem_joined {s : Statement E} (h : row ∈ s.joined db) :
    (∃ r rest, row = ([], some r) :: rest) ∧ row.map (·.1) = sources s.joins := by
  have hfold : ∀ {joins : List (Join E)} {rows : List JoinedRow},
      row ∈ joins.foldl (fun rows j => rows.flatMap (extend db j)) rows →
      ∃ start ∈ rows, start <+: row ∧ row.map (·.1) = start.map (·.1) ++ joins.map (·.path) := by
    intro joins
    induction joins with
    | nil => exact fun h => ⟨row, h, List.prefix_refl row, (List.append_nil _).symm⟩
    | cons j rest ih =>
      intro rows h
      obtain ⟨next, hnext, hbegins, hpaths⟩ := ih h
      obtain ⟨start, hstart, hnext⟩ := List.mem_flatMap.mp hnext
      obtain ⟨found, rfl⟩ : ∃ found, next = start ++ [(j.path, found)] := by
        unfold extend at hnext
        split at hnext
        · exact ⟨none, List.mem_singleton.mp hnext⟩
        · obtain ⟨r, -, rfl⟩ := List.mem_map.mp hnext
          exact ⟨some r, rfl⟩
      refine ⟨start, hstart, (List.prefix_append _ _).trans hbegins, ?_⟩
      rw [hpaths]
      simp
  obtain ⟨start, hstart, hbegins, hpaths⟩ := hfold h
  obtain ⟨r, -, rfl⟩ := List.mem_map.mp hstart
  obtain ⟨rest, rfl⟩ := hbegins
  exact ⟨⟨r, rest, rfl⟩, hpaths⟩

omit [Schema E] [Schema.Keyed E] in
/-- What is added to a row changes no cell below a path that has an entry already. -/
theorem cell_of_begins {longer : JoinedRow} (hbegins : row <+: longer) {path : List String}
    (hpath : path ∈ row.map (·.1)) (name : String) :
    longer.cell path name = row.cell path name := by
  obtain ⟨rest, rfl⟩ := hbegins
  obtain ⟨entry, hentry, rfl⟩ := List.mem_map.mp hpath
  obtain ⟨found, hfound⟩ := Option.isSome_iff_exists.mp
    ((List.find?_isSome (p := (·.1 == entry.1))).mpr ⟨entry, hentry, beq_self_eq_true entry.1⟩)
  unfold JoinedRow.cell
  rw [List.find?_append, hfound, Option.some_or]

omit [Schema E] [Schema.Keyed E] in
/-- Nor does it change what a restriction says of the row. -/
theorem holds_of_begins {longer : JoinedRow} (hbegins : row <+: longer) {r : Restriction E}
    (hreads : ∀ path, r.path? = some path → path ∈ row.map (·.1)) :
    r.holds db longer = r.holds db row := by
  have hcell (ref : ColumnRef) (h : ref.path ∈ row.map (·.1)) : longer.value ref = row.value ref :=
    cell_of_begins hbegins h ref.column.name
  cases r with
  | compare ref op operand =>
    simp only [Restriction.holds, comparisonHolds, hcell ref (hreads _ rfl)]
  | null ref negated => simp only [Restriction.holds, hcell ref (hreads _ rfl)]
  | flag ref negated value =>
    simp only [Restriction.holds, comparisonHolds, hcell ref (hreads _ rfl)]
  | among ref operands =>
    simp only [Restriction.holds, comparisonHolds, hcell ref (hreads _ rfl)]
  | related path relationship negated =>
    simp only [Restriction.holds, cell_of_begins hbegins (hreads _ rfl)]
  | constant truth => rfl

end

namespace Statement

/-! ## Selecting without a window -/

omit [Schema E] [Schema.Keyed E] in
/-- The rows that a statement selects without order and window, or why it cannot run. -/
def selected (s : Statement E) (db : Database E) : Except QueryError (List JoinedRow) := do
  let s ← s.prepared
  let _ ← s.operands.mapM bindParameter
  return s.restricted db

/-- Each restriction reads columns through a path that has a table. -/
def ReadsJoined (s : Statement E) : Prop :=
  ∀ r ∈ s.restrictions, ∀ path, r.path? = some path → path ∈ sources s.joins

/-- A statement with joins to single records added, which restricts the same. -/
structure Widens (s s' : Statement E) : Prop where
  root_eq : s'.root = s.root
  restrictions_eq : s'.restrictions = s.restrictions
  limit_eq : s'.limit = s.limit
  offset_eq : s'.offset = s.offset
  joins_eq : ∃ more, s'.joins = s.joins ++ more ∧ ∀ j ∈ more, j.RefersToKey

section

variable {s s' : Statement E} {db : Database E}

omit [Schema E] [Schema.Keyed E] in
/-- Counting counts the selected rows. -/
theorem count_eq (s : Statement E) (db : Database E) :
    s.count db = (s.selected db).map fun rows => (rows.length : Int) := by
  unfold count selected
  cases s.prepared with
  | error e => rfl
  | ok p =>
    simp only [bind, Except.bind]
    cases p.operands.mapM bindParameter with
    | error e => rfl
    | ok cells => rfl

omit [Schema E] [Schema.Keyed E] in
/-- Every selected row is one of the root. -/
theorem exists_of_mem_selected {rows : List JoinedRow} (h : s.selected db = .ok rows)
    {row : JoinedRow} (hrow : row ∈ rows) : ∃ r rest, row = ([], some r) :: rest := by
  obtain ⟨p, hp, h⟩ := Sorting.eq_ok_of_bind h
  obtain ⟨cells, -, h⟩ := Sorting.eq_ok_of_bind h
  cases h
  exact (exists_of_mem_joined (List.mem_of_mem_filter hrow)).1

omit [Schema E] [Schema.Keyed E] in
/-- Binding operands leaves the window. -/
theorem window_of_prepared {p : Statement E} (h : s.prepared = .ok p) :
    p.limit = s.limit ∧ p.offset = s.offset := by
  obtain ⟨rs, -, h⟩ := Sorting.eq_ok_of_bind h
  cases h
  exact ⟨rfl, rfl⟩

omit [Schema E] [Schema.Keyed E] in
theorem parameters_of_no_window (hlimit : s.limit = none) (hoffset : s.offset = none) :
    s.parameters = s.operands := by
  simp [parameters, windowParameters, hasWindow, hlimit, hoffset]

omit [Schema.Keyed E] in
/-- **Without a window all selected rows are returned**, in some order. -/
theorem rows_eq (hlimit : s.limit = none) (hoffset : s.offset = none) :
    (s.rows db).map Multiset.ofList =
      (s.selected db).map fun rows => Multiset.ofList (rows.filterMap (·.root)) := by
  unfold rows selected
  cases hp : s.prepared with
  | error e => rfl
  | ok p =>
    obtain ⟨hlimit', hoffset'⟩ := window_of_prepared hp
    rw [hlimit] at hlimit'
    rw [hoffset] at hoffset'
    simp only [bind, Except.bind, parameters_of_no_window hlimit' hoffset']
    cases p.operands.mapM bindParameter with
    | error e => rfl
    | ok cells =>
      have hcut : cut p.limit p.offset (p.ordered db) = p.ordered db := by
        simp [cut, hlimit', hoffset']
      simp only [hcut, pure, Except.pure, Except.map]
      exact congrArg Except.ok
        (Multiset.coe_eq_coe.mpr ((List.mergeSort_perm _ _).filterMap _))

omit [Schema.Keyed E] in
/-- **Counting is exact** without a window: it gives the number of the rows that are returned. -/
theorem count_eq_length (hlimit : s.limit = none) (hoffset : s.offset = none) :
    s.count db = (s.rows db).map fun rows => (rows.length : Int) := by
  have hcard : (s.rows db).map (fun rows => (rows.length : Int)) =
      ((s.rows db).map Multiset.ofList).map fun rows => (rows.card : Int) := by
    cases s.rows db <;> rfl
  rw [hcard, rows_eq hlimit hoffset, count_eq]
  cases hrows : s.selected db with
  | error e => rfl
  | ok rows =>
    have hlength : (rows.filterMap (·.root)).length = rows.length := by
      rw [List.filterMap_length_eq_length]
      intro row hrow
      obtain ⟨r, rest, rfl⟩ := exists_of_mem_selected hrows hrow
      rfl
    exact congrArg Except.ok (congrArg Nat.cast hlength.symm)

/-! ## Adding joins -/

omit [Schema E] [Schema.Keyed E] in
theorem path?_of_prepared {r t : Restriction E} (h : r.prepared = .ok t) : t.path? = r.path? := by
  cases r with
  | among ref operands =>
    obtain ⟨bound, -, h⟩ := Sorting.eq_ok_of_bind h
    cases h
    rfl
  | _ =>
    cases h
    rfl

omit [Schema E] [Schema.Keyed E] in
/-- Binding operands leaves the paths that restrictions read. -/
theorem ReadsJoined.of_prepared (h : s.ReadsJoined) {rs : List (Restriction E)}
    (hrs : (conditions s.restrictions).mapM Restriction.prepared = .ok rs) :
    ReadsJoined { s with restrictions := rs } := by
  intro r hr path hpath
  have hpaths : rs.map Restriction.path? = (conditions s.restrictions).map Restriction.path? :=
    map_eq_of_mapM (fun _ _ => path?_of_prepared) hrs
  have hmem : some path ∈ (conditions s.restrictions).map Restriction.path? :=
    hpaths ▸ hpath ▸ List.mem_map_of_mem hr
  obtain ⟨t, ht, htpath⟩ := List.mem_map.mp hmem
  rcases mem_conditions ht with ht | rfl
  · exact h t ht path htpath
  · cases htpath

/-- **Joins to single records leave the restricted rows**, each beside what is joined to it. -/
theorem exists_restricted_of_widens (hdb : db.HasUniqueKeys) (h : Widens s s') :
    ∃ more, ∀ rs, ReadsJoined { s with restrictions := rs } →
      restricted { s' with restrictions := rs } db =
        (restricted { s with restrictions := rs } db).map (beside db more) := by
  obtain ⟨more, hmore, hone⟩ := h.joins_eq
  refine ⟨more, fun rs hreads => ?_⟩
  have hjoined : joined { s' with restrictions := rs } db =
      (joined { s with restrictions := rs } db).map (beside db more) := by
    unfold joined
    simp only [hmore, h.root_eq, List.foldl_append]
    exact foldl_extend_of_refersToKey hdb hone _
  unfold restricted
  rw [hjoined, List.filter_map]
  refine congrArg _ (List.filter_congr fun row hrow => ?_)
  rw [Function.comp_apply, Bool.eq_iff_iff, List.all_eq_true, List.all_eq_true]
  refine forall₂_congr fun r hr => ?_
  rw [holds_of_begins (prefix_beside db more row) fun path hpath => ?_]
  rw [(exists_of_mem_joined hrow).2]
  exact hreads r hr path hpath

/-- **The same rows are selected**, each beside what is joined to it. -/
theorem exists_selected_of_widens (hdb : db.HasUniqueKeys) (h : Widens s s')
    (hreads : s.ReadsJoined) :
    ∃ more, s'.selected db = (s.selected db).map (List.map (beside db more)) := by
  obtain ⟨more, hmore⟩ := exists_restricted_of_widens hdb h
  refine ⟨more, ?_⟩
  unfold selected prepared
  rw [h.restrictions_eq]
  cases hrs : (conditions s.restrictions).mapM Restriction.prepared with
  | error e => rfl
  | ok rs =>
    simp only [bind, Except.bind, pure, Except.pure, operands]
    cases ((conditions rs).flatMap (·.operands)).mapM bindParameter with
    | error e => rfl
    | ok cells => exact congrArg Except.ok (hmore rs (hreads.of_prepared hrs))

/-- The number of rows stays. -/
theorem count_of_widens (hdb : db.HasUniqueKeys) (h : Widens s s') (hreads : s.ReadsJoined) :
    s'.count db = s.count db := by
  obtain ⟨more, hmore⟩ := exists_selected_of_widens hdb h hreads
  rw [count_eq, count_eq, hmore]
  cases s.selected db with
  | error e => rfl
  | ok rows => exact congrArg (fun n : Nat => Except.ok (n : Int)) (List.length_map _)

/-- So do the rows that are returned without a window, apart from their order. -/
theorem rows_of_widens (hdb : db.HasUniqueKeys) (h : Widens s s') (hreads : s.ReadsJoined)
    (hlimit : s.limit = none) (hoffset : s.offset = none) :
    (s'.rows db).map Multiset.ofList = (s.rows db).map Multiset.ofList := by
  obtain ⟨more, hmore⟩ := exists_selected_of_widens hdb h hreads
  rw [rows_eq hlimit hoffset, rows_eq (h.limit_eq.trans hlimit) (h.offset_eq.trans hoffset), hmore]
  cases hrows : s.selected db with
  | error e => rfl
  | ok rows =>
    refine congrArg (fun rows => Except.ok (Multiset.ofList rows)) ?_
    rw [List.filterMap_map]
    refine List.filterMap_congr fun row hrow => ?_
    obtain ⟨r, rest, rfl⟩ := exists_of_mem_selected hrows hrow
    obtain ⟨tail, htail⟩ := prefix_beside db more (([], some r) :: rest)
    rw [Function.comp_apply, ← htail]
    rfl

end

/-! ## Calls -/

section

variable {s : Statement E}

theorem Widens.refl (s : Statement E) : Widens s s :=
  ⟨rfl, rfl, rfl, rfl, [], (List.append_nil _).symm, fun _ hj => nomatch hj⟩

theorem Widens.trans {s₁ s₂ s₃ : Statement E} (h : Widens s₁ s₂) (h' : Widens s₂ s₃) :
    Widens s₁ s₃ := by
  obtain ⟨more, hmore, hone⟩ := h.joins_eq
  obtain ⟨others, hothers, hone'⟩ := h'.joins_eq
  refine ⟨h'.root_eq.trans h.root_eq, h'.restrictions_eq.trans h.restrictions_eq,
    h'.limit_eq.trans h.limit_eq, h'.offset_eq.trans h.offset_eq, more ++ others, ?_, ?_⟩
  · rw [hothers, hmore, List.append_assoc]
  · exact fun j hj => (List.mem_append.mp hj).elim (hone j) (hone' j)

/-- Following relationships to single records adds joins that refer to keys. -/
theorem widens_of_follows {names : List String} {m reached : E} {here : Position E}
    (h : Follows s.root s.start names reached here)
    (htarget : Schema.target? s.root names = some m) :
    Widens s (s.upTo here) ∧ (s.upTo here).IsGrown := by
  obtain ⟨more, hmore, halong⟩ := h.added
  refine ⟨⟨rfl, rfl, rfl, rfl, more, hmore, fun j hj => ?_⟩, h.grown⟩
  have hj' : j ∈ here.joins := hmore ▸ List.mem_append_right _ hj
  have hbegins : j.path <+: names := halong j hj
  obtain ⟨name, model, -, -, hr⟩ := h.grown.exists_of_mem hj'
  exact Schema.Keyed.other_eq_key model (name, j.relationship)
    (Schema.exists_of_relationship? hr) (h.grown.toMany_eq_false hj' htarget hbegins)

/-- A dotted path along relationships to single records. -/
def JoinsToOne (root : E) (path : Value) : Prop :=
  ∃ text, path.text? = some text ∧ (Schema.target? root (Text.split '.' text)).isSome

/-- A direction for a column at the end of such a path. -/
def SortsToOne (root : E) (clause : Value) : Prop :=
  ∃ name given path, unpackClause clause = .ok (name, given) ∧ name.text? = some path ∧
    (Schema.columnAt? root path).isSome ∧ (Direction.read? given).isSome

/-- A join along relationships to single records, or a sort by columns at their end. -/
def ToOneCall (root : E) : Call → Prop
  | .leftJoin paths => ∀ path ∈ paths, JoinsToOne root path
  | .orderBy clauses | .reorder clauses => ∀ clause ∈ clauses, SortsToOne root clause
  | _ => False

theorem exists_joinPath (h : s.IsGrown) {path : Value} (hpath : JoinsToOne s.root path) :
    ∃ t, s.joinPath path = .ok t ∧ Widens s t ∧ t.IsGrown := by
  obtain ⟨text, htext, htarget⟩ := hpath
  obtain ⟨m, htarget⟩ := Option.isSome_iff_exists.mp htarget
  obtain ⟨here, hfollow, hhere⟩ := exists_followAll h (Schema.modelAt?_of_target? htarget)
  have hjoined := joinPath_eq_ok_iff.mpr ⟨text, _, Value.spelling?_of_text? htext, hfollow, rfl⟩
  exact ⟨_, hjoined, widens_of_follows hhere htarget⟩

theorem exists_orderBy (h : s.IsGrown) {clause : Value} (hclause : SortsToOne s.root clause) :
    ∃ t, s.orderBy clause = .ok t ∧ Widens s t ∧ t.IsGrown := by
  obtain ⟨name, given, path, hunpack, hname, hcolumn, hgiven⟩ := hclause
  obtain ⟨ref, href⟩ := Option.isSome_iff_exists.mp hcolumn
  obtain ⟨direction, hdirection⟩ := Option.isSome_iff_exists.mp hgiven
  obtain ⟨hsplit, model, hmodel, hc⟩ := Schema.columnAt?_eq_some_iff.mp href
  have hfound : Schema.attributeAt? s.root path = some (.column ref.column) := by
    rw [Schema.attributeAt?, hsplit, Schema.modelAt?_of_target? hmodel, Option.bind_some,
      Schema.attribute?, hc]
    rfl
  obtain ⟨here, reached, hresolve, hhere⟩ := exists_resolve h hname hfound
  rw [hsplit] at hhere
  have hhanded : handedDirection given = .ok direction := by rw [handedDirection, hdirection]
  obtain ⟨hwidens, hgrown⟩ := widens_of_follows hhere hmodel
  exact ⟨_, orderBy_eq_ok_iff.mpr
    ⟨name, given, _, _, direction, hunpack, hresolve, hhanded, rfl⟩,
    ⟨rfl, rfl, rfl, rfl, hwidens.joins_eq⟩, hgrown⟩

/-- Steps that add joins to single records, one after the other. -/
theorem exists_foldlM {α : Type} (step : Statement E → α → Except QueryError (Statement E))
    (root : E) (fits : α → Prop)
    (hstep : ∀ s a, s.root = root → s.IsGrown → fits a →
      ∃ t, step s a = .ok t ∧ Widens s t ∧ t.IsGrown)
    {xs : List α} (hfits : ∀ a ∈ xs, fits a) :
    ∀ {s}, s.root = root → s.IsGrown →
      ∃ t, xs.foldlM step s = .ok t ∧ Widens s t ∧ t.IsGrown := by
  induction xs with
  | nil => exact fun {s} _ h => ⟨s, rfl, .refl s, h⟩
  | cons a rest ih =>
    intro s hroot h
    obtain ⟨ha, hrest⟩ := List.forall_mem_cons.mp hfits
    obtain ⟨next, hnext, hwidens, hgrown⟩ := hstep s a hroot h ha
    obtain ⟨t, ht, hwidens', hgrown'⟩ := ih hrest (hwidens.root_eq.trans hroot) hgrown
    exact ⟨t, bind_eq_ok hnext ht, hwidens.trans hwidens', hgrown'⟩

/-- **Sorting by a related column and joining** add joins to single records. -/
theorem exists_perform (h : s.IsGrown) {call : Call} (hcall : ToOneCall s.root call) :
    ∃ t, s.perform call = .ok t ∧ Widens s t := by
  cases call with
  | leftJoin paths =>
    obtain ⟨t, ht, hwidens, -⟩ := exists_foldlM joinPath s.root (JoinsToOne s.root)
      (fun s' path hroot h hpath => exists_joinPath h (hroot ▸ hpath)) hcall rfl h
    exact ⟨t, ht, hwidens⟩
  | orderBy clauses =>
    obtain ⟨t, ht, hwidens, -⟩ := exists_foldlM orderBy s.root (SortsToOne s.root)
      (fun s' clause hroot h hclause => exists_orderBy h (hroot ▸ hclause)) hcall rfl h
    exact ⟨t, ht, hwidens⟩
  | reorder clauses =>
    obtain ⟨t, ht, hwidens, -⟩ := exists_foldlM orderBy s.root (SortsToOne s.root)
      (fun s' clause hroot h hclause => exists_orderBy h (hroot ▸ hclause)) hcall
      (s := { s with order := [] }) rfl h
    exact ⟨t, ht, hwidens.root_eq, hwidens.restrictions_eq, hwidens.limit_eq, hwidens.offset_eq,
      hwidens.joins_eq⟩
  | _ => exact hcall.elim

end

end Statement

/-! ## Collections -/

section

variable {db : Database E} {root : E} {calls : List Call}

/-- Does a call set a bound of the window? -/
def setsWindow : Call → Bool
  | .limit _ | .offset _ => true
  | _ => false

omit [Schema E] [Schema.Keyed E] in
theorem foldl_of_not_setsWindow (h : ∀ call ∈ calls, setsWindow call = false) :
    calls.foldl limitAfter none = none ∧ calls.foldl offsetAfter none = none := by
  induction calls with
  | nil => exact ⟨rfl, rfl⟩
  | cons call rest ih =>
    obtain ⟨hcall, hrest⟩ := List.forall_mem_cons.mp h
    cases call with
    | limit count => cases hcall
    | offset count => cases hcall
    | _ => exact ih hrest

omit [Schema.Keyed E] in
/-- A statement that has answered calls reads columns through joined paths only. -/
theorem JoinInvariant.readsJoined {s : Statement E} (h : JoinInvariant root calls s) :
    s.ReadsJoined := by
  intro r hr path hpath
  have hmem : some path ∈ s.restrictions.map Restriction.path? := hpath ▸ List.mem_map_of_mem hr
  rw [h.tests_eq] at hmem
  exact h.mem_sources_of_reads (.inl hmem)

omit [Schema.Keyed E] in
/-- Calls keep the database. -/
theorem eq_of_calls {q : TableQuery E} (h : calls.foldlM (fun q call => TableQuery.perform call q)
    (TableQuery.all db root) = .ok q) : q = ⟨db, q.statement⟩ :=
  Except.ok.inj (h.symm.trans (calls_of_statement db (statement_of_calls h)))

omit [Schema.Keyed E] in
theorem rows_eq_map (db : Database E) (s : Statement E) :
    TableQuery.rows ⟨db, s⟩ = (s.rows db).map (List.map Row.toValue) := by
  unfold TableQuery.rows
  cases s.rows db <;> rfl

omit [Schema.Keyed E] in
theorem multiset_rows (db : Database E) (s : Statement E) :
    (TableQuery.rows ⟨db, s⟩).map Multiset.ofList =
      ((s.rows db).map Multiset.ofList).map (Multiset.map Row.toValue) := by
  rw [rows_eq_map]
  cases s.rows db <;> rfl

/-- **Joins to single records keep the selection.** After any calls that set no window, counting
gives the number of the records that are returned. Joining along relationships to single records,
or sorting by columns at their end, then succeeds, and changes neither the count nor the records
that are returned, apart from their order. -/
theorem toOne_joins_keep_selection (hdb : db.HasUniqueKeys) {q : TableQuery E}
    (hcalls : calls.foldlM (fun q call => TableQuery.perform call q) (TableQuery.all db root) =
      .ok q)
    (hwindow : ∀ call ∈ calls, setsWindow call = false) :
    q.statement.count q.database = q.rows.map (fun records => (records.length : Int)) ∧
      ∀ call, Statement.ToOneCall root call → ∃ q', q.perform call = .ok q' ∧
        q'.statement.count q'.database = q.statement.count q.database ∧
        q'.rows.map Multiset.ofList = q.rows.map Multiset.ofList := by
  have hrun := statement_of_calls hcalls
  have hq := eq_of_calls hcalls
  generalize q.statement = s at hq hrun
  subst hq
  have hinvariant := ((joinInvariant_nil root).foldlM_perform hrun).1
  have hbinds := BindsBy.of_foldlM hrun
  obtain ⟨hlimits, hoffsets⟩ := foldl_of_not_setsWindow hwindow
  have hlimit : s.limit = none := hbinds.limit_eq.trans hlimits
  have hoffset : s.offset = none := hbinds.offset_eq.trans hoffsets
  refine ⟨?_, fun call hcall => ?_⟩
  · rw [rows_eq_map, Statement.count_eq_length hlimit hoffset]
    cases s.rows db with
    | error e => rfl
    | ok rows => exact congrArg (fun n : Nat => Except.ok (n : Int)) (List.length_map _).symm
  · obtain ⟨t, ht, hwidens⟩ :=
      Statement.exists_perform hinvariant.isGrown (hinvariant.root_eq ▸ hcall)
    refine ⟨⟨db, t⟩, bind_eq_ok ht rfl,
      Statement.count_of_widens hdb hwidens hinvariant.readsJoined, ?_⟩
    rw [multiset_rows, multiset_rows,
      Statement.rows_of_widens hdb hwidens hinvariant.readsJoined hlimit hoffset]

end

/-- People beside their books of a title. -/
def bookCalls : List Call := [.leftJoin [.str "books"], .restrict [] [("books.title", .str "Dune")]]

/-- These people sorted by the town of their mentor's mentor. -/
theorem toOne_joins_keep_selection_of_books :
    Entity.sample.HasUniqueKeys ∧ (∀ call ∈ bookCalls, setsWindow call = false) ∧
      ∃ q : TableQuery Entity,
        bookCalls.foldlM (fun q call => TableQuery.perform call q)
          (TableQuery.all Entity.sample .user) = .ok q ∧
        ∃ q', q.perform
            (.orderBy [.tuple [.str "mentor.mentor.address.city", .str "desc"]]) = .ok q' ∧
          q'.statement.count q'.database = q.statement.count q.database ∧
          q'.rows.map Multiset.ofList = q.rows.map Multiset.ofList := by
  have hdb := isSound_sample.hasUniqueKeys
  have hwindow : ∀ call ∈ bookCalls, setsWindow call = false := by
    intro call hcall
    rcases List.mem_pair.mp hcall with rfl | rfl <;> rfl
  obtain ⟨q, hq⟩ : ∃ q, bookCalls.foldlM (fun q call => TableQuery.perform call q)
      (TableQuery.all Entity.sample .user) = .ok q := ⟨_, rfl⟩
  have hcall : Statement.ToOneCall Entity.user
      (.orderBy [.tuple [.str "mentor.mentor.address.city", .str "desc"]]) := by
    intro clause hclause
    obtain rfl := List.mem_singleton.mp hclause
    exact ⟨_, _, _, rfl, rfl, rfl, rfl⟩
  exact ⟨hdb, hwindow, q, hq, (toOne_joins_keep_selection hdb hq hwindow).2 _ hcall⟩

end ResourceQuery.Sql
