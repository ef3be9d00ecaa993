import ResourceQuery.Proofs.Sql.Reference
import ResourceQuery.Sql.Path

/-!
# Joins along paths

Following a path joins each relationship on it that has no alias yet. A join to a single record
adds the record that its path leads to, or nothing, and neither loses nor repeats a row. The rows
of a statement with such joins are therefore those of its root, beside what the joined paths lead
to.

Headlines:
* **`aliasesOf`**: the aliases that go with joins.
* **`Joined`**: joins to single records, each after the path that it goes on from, with their
  aliases beside them.
* **`Statement.joined_eq_map`**: such joins keep the rows of the root, one for one.
* **`Schema.columnAt?`**: the column that a dotted path leads to.
* **`resolve_of_columnAt?`**: a statement resolves such a path and only adds joins.
-/

namespace ResourceQuery.Sql

variable {E : Type}

/-- The paths that have a table in a statement: that of the root and those of the joins. -/
def sources (joins : List (Join E)) : List (List String) := [] :: joins.map (·.path)

theorem sources_mono {joins joins' : List (Join E)} (h : joins ⊆ joins') :
    sources joins ⊆ sources joins' :=
  List.cons_subset_cons _ (List.map_subset _ h)

/-- The aliases that go with joins: each path is looked up under the alias of its own join. -/
def aliasesOf (joins : List (Join E)) : List (List String × Alias E) :=
  joins.map fun j => (j.path, ⟨j.path, j.relationship.target⟩)

theorem aliasesOf_concat (joins : List (Join E)) (j : Join E) :
    aliasesOf (joins ++ [j]) = aliasesOf joins ++ [(j.path, ⟨j.path, j.relationship.target⟩)] :=
  List.map_append

theorem map_fst_aliasesOf (joins : List (Join E)) :
    (aliasesOf joins).map (·.1) = joins.map (·.path) := by
  rw [aliasesOf, List.map_map]
  rfl

/-- What is looked up is the alias of a join of the path. -/
theorem exists_join_of_find? {joins : List (Join E)} {key key' : List String} {found : Alias E}
    (h : (aliasesOf joins).find? (·.1 == key) = some (key', found)) :
    ∃ j ∈ joins, j.path = key ∧ found = ⟨key, j.relationship.target⟩ := by
  obtain ⟨j, hj, hentry⟩ := List.mem_map.mp (List.mem_of_find?_eq_some h)
  cases hentry
  have hpath : j.path = key := by simpa using List.find?_some h
  exact ⟨j, hj, hpath, by rw [hpath]⟩

/-- A path without an alias is not joined. -/
theorem not_mem_of_find? {joins : List (Join E)} {key : List String}
    (h : (aliasesOf joins).find? (·.1 == key) = none) : key ∉ joins.map (·.path) := by
  intro hmem
  obtain ⟨j, hj, rfl⟩ := List.mem_map.mp hmem
  simpa using List.find?_eq_none.mp h _ (List.mem_map_of_mem hj)

variable [Schema E]

/-- Joins to single records, each from the table of a path before it, and the aliases that are kept
beside them. -/
inductive Joined (root : E) : List (List String × Alias E) → List (Join E) → Prop
  | nil : Joined root [] []
  | snoc {aliases : List (List String × Alias E)} {joins : List (Join E)} {path : List String}
      {model : E} {name : String} {r : Relationship E} (h : Joined root aliases joins)
      (hsource : path ∈ sources joins) (hmodel : Schema.target? root path = some model)
      (hr : Schema.toOne? model name = some r) :
      Joined root (aliases ++ [(path ++ [name], ⟨path ++ [name], r.target⟩)])
        (joins ++ [⟨path, path ++ [name], r⟩])

theorem Joined.aliases_eq {root : E} {aliases : List (List String × Alias E)}
    {joins : List (Join E)} (h : Joined root aliases joins) : aliases = aliasesOf joins := by
  induction h with
  | nil => rfl
  | snoc h hsource hmodel hr ih => rw [ih, aliasesOf_concat]

/-- A path is joined by the relationship that it ends in. -/
theorem Joined.relationship_eq {root : E} {aliases : List (List String × Alias E)}
    {joins : List (Join E)} (h : Joined root aliases joins)
    {j : Join E} (hj : j ∈ joins) {path : List String} {model : E} {name : String}
    {r : Relationship E} (hpath : j.path = path ++ [name])
    (hmodel : Schema.target? root path = some model) (hr : Schema.toOne? model name = some r) :
    j.relationship = r := by
  induction h with
  | nil => cases hj
  | snoc h hsource hmodel' hr' ih =>
    rcases List.mem_append.mp hj with hj | hj
    · exact ih hj
    · rw [List.mem_singleton] at hj
      subst hj
      obtain ⟨rfl, hname⟩ := List.append_inj' hpath rfl
      cases hname
      rw [hmodel', Option.some.injEq] at hmodel
      subst hmodel
      rw [hr', Option.some.injEq] at hr
      exact hr

/-! ## The rows of joins -/

/-- A row of the root beside what the joined paths lead to. -/
def Database.spread (db : Database E) (root : E) (joins : List (Join E)) (row : Row) : JoinedRow :=
  (sources joins).map fun path => (path, db.reach root row path)

section

variable {db : Database E} {root : E} {row : Row}

theorem find?_map_self {α β : Type} [BEq α] [LawfulBEq α] {f : α → β} {x : α} {xs : List α}
    (h : x ∈ xs) : (xs.map fun y => (y, f y)).find? (·.1 == x) = some (x, f x) := by
  induction xs with
  | nil => cases h
  | cons y ys ih =>
    by_cases hyx : y = x
    · subst hyx
      simp
    · have hmem : x ∈ ys := (List.mem_cons.mp h).resolve_left (Ne.symm hyx)
      simpa [hyx] using ih hmem

/-- Below a joined path stands the cell of the record that the path leads to. -/
theorem cell_spread {joins : List (Join E)} {path : List String} (h : path ∈ sources joins)
    (name : String) :
    (db.spread root joins row).cell path name = db.cellAt root row path name := by
  unfold JoinedRow.cell Database.spread Database.cellAt
  rw [find?_map_self h]
  cases db.reach root row path with
  | none => rfl
  | some r => rfl

theorem root_spread (joins : List (Join E)) : (db.spread root joins row).root = some row := by
  have hroot : [] ∈ sources joins := List.mem_cons_self
  unfold JoinedRow.root Database.spread
  rw [find?_map_self hroot]
  rfl

/-- **A join to a single record** adds the record that its path leads to, or nothing. -/
theorem extend_spread [Schema.Keyed E] (hdb : db.IsSound) {joins : List (Join E)}
    {path : List String} {model : E} {name : String} {r : Relationship E}
    (hsource : path ∈ sources joins) (hmodel : Schema.target? root path = some model)
    (hr : Schema.toOne? model name = some r) (hrow : row ∈ db.rows root) :
    extend db ⟨path, path ++ [name], r⟩ (db.spread root joins row) =
      [db.spread root (joins ++ [⟨path, path ++ [name], r⟩]) row] := by
  have hspread : db.spread root (joins ++ [⟨path, path ++ [name], r⟩]) row =
      db.spread root joins row ++ [(path ++ [name], db.reach root row (path ++ [name]))] := by
    unfold Database.spread sources
    simp
  have hrelated : related db ⟨path, path ++ [name], r⟩ (db.spread root joins row) =
      (db.reach root row (path ++ [name])).toList := by
    unfold related
    rw [cell_spread hsource, Database.reach_append hmodel hr,
      Database.cellAt]
    cases h : db.reach root row path with
    | none =>
      have hnone : ∀ other ∈ db.rows r.target,
          ¬ (Cell.null.compare? (other.cell r.other.name) == some .eq) = true := by
        intro other _
        simp [Cell.compare?]
      exact List.filter_eq_nil_iff.mpr hnone
    | some other => exact relatedTo_eq_toList hdb hr (Database.mem_of_reach hrow hmodel h)
  unfold extend
  rw [hspread, hrelated]
  cases db.reach root row (path ++ [name]) with
  | none => rfl
  | some other => rfl

/-- **Joins to single records keep the rows of the root**, one for one. -/
theorem foldl_extend [Schema.Keyed E] (hdb : db.IsSound)
    {aliases : List (List String × Alias E)} {joins : List (Join E)}
    (h : Joined root aliases joins) :
    joins.foldl (fun rows j => rows.flatMap (extend db j))
        ((db.rows root).map fun row => [([], some row)]) =
      (db.rows root).map (db.spread root joins) := by
  induction h with
  | nil => rfl
  | snoc h hsource hmodel hr ih =>
    rw [List.foldl_append, ih, List.foldl_cons, List.foldl_nil, List.flatMap_map,
      List.flatMap_congr fun row hrow => extend_spread hdb hsource hmodel hr hrow]
    exact List.flatMap_pure_eq_map _ _

theorem Statement.joined_eq_map [Schema.Keyed E] (hdb : db.IsSound) {s : Statement E}
    (h : Joined s.root s.aliases s.joins) :
    s.joined db = (db.rows s.root).map (db.spread s.root s.joins) :=
  foldl_extend hdb h

end

/-! ## Following a path -/

section

variable {root : E}

theorem follow_of_toOne? {aliases : List (List String × Alias E)} {joins : List (Join E)}
    (h : Joined root aliases joins) {path : List String} {model : E} {name : String}
    {r : Relationship E} (hsource : path ∈ sources joins)
    (hmodel : Schema.target? root path = some model) (hr : Schema.toOne? model name = some r) :
    ∃ aliases' joins', Statement.follow ⟨aliases, joins, path, ⟨path, model⟩⟩ name =
        .ok ⟨aliases', joins', path ++ [name], ⟨path ++ [name], r.target⟩⟩ ∧
      Joined root aliases' joins' ∧ joins ⊆ joins' ∧ path ++ [name] ∈ sources joins' := by
  unfold Statement.follow
  cases hfind : aliases.find? (·.1 == path ++ [name]) with
  | some entry =>
    obtain ⟨j, hj, hpath, hfound⟩ := exists_join_of_find? (h.aliases_eq ▸ hfind)
    refine ⟨aliases, joins, ?_, h, List.Subset.refl _, ?_⟩
    · simp [hfind, hfound, h.relationship_eq hj hpath hmodel hr]
    · rw [← hpath]
      exact List.mem_cons_of_mem _ (List.mem_map_of_mem hj)
  | none =>
    refine ⟨_, _, ?_, .snoc h hsource hmodel hr, List.subset_append_left _ _, ?_⟩
    · simp [hfind, (Schema.toOne?_eq_some_iff.mp hr).1]
    · unfold sources
      simp

/-- **Following a path of relationships to single records** adds the joins that it needs. -/
theorem foldlM_follow {names : List String} {target : E} :
    ∀ {aliases : List (List String × Alias E)} {joins : List (Join E)} {path : List String}
      {model : E}, Joined root aliases joins →
      path ∈ sources joins → Schema.target? root path = some model →
      Schema.target? model names = some target →
      ∃ aliases' joins', names.foldlM Statement.follow ⟨aliases, joins, path, ⟨path, model⟩⟩ =
          .ok ⟨aliases', joins', path ++ names, ⟨path ++ names, target⟩⟩ ∧
        Joined root aliases' joins' ∧ joins ⊆ joins' ∧ path ++ names ∈ sources joins' := by
  induction names with
  | nil =>
    intro aliases joins path model h hsource _ htarget
    cases htarget
    rw [List.append_nil]
    exact ⟨aliases, joins, rfl, h, List.Subset.refl _, hsource⟩
  | cons name rest ih =>
    intro aliases joins path model h hsource hmodel htarget
    obtain ⟨r, hr, hrest⟩ := Option.bind_eq_some_iff.mp htarget
    obtain ⟨aliases₁, joins₁, hfollow, h₁, hsub₁, hsource₁⟩ :=
      follow_of_toOne? h hsource hmodel hr
    have hmodel₁ : Schema.target? root (path ++ [name]) = some r.target := by
      rw [Schema.target?_append, hmodel]
      simp [Schema.target?, hr]
    obtain ⟨aliases₂, joins₂, hfold, h₂, hsub₂, hsource₂⟩ := ih h₁ hsource₁ hmodel₁ hrest
    rw [List.append_assoc, List.singleton_append] at hfold hsource₂
    refine ⟨aliases₂, joins₂, ?_, h₂, List.Subset.trans hsub₁ hsub₂, hsource₂⟩
    rw [List.foldlM_cons, hfollow]
    exact hfold

theorem Statement.followAll_of_target? {s : Statement E} (h : Joined s.root s.aliases s.joins)
    {names : List String} {target : E} (htarget : Schema.target? s.root names = some target) :
    ∃ here, s.followAll names = .ok here ∧ here.reached = ⟨names, target⟩ ∧
      Joined s.root here.aliases here.joins ∧ s.joins ⊆ here.joins ∧
      names ∈ sources here.joins := by
  obtain ⟨aliases', joins', hfollow, hjoined⟩ := foldlM_follow h List.mem_cons_self rfl htarget
  exact ⟨_, hfollow, rfl, hjoined⟩

end

/-- The column that a dotted path leads to through relationships to single records. -/
def Schema.columnAt? (root : E) (path : String) : Option ColumnRef :=
  let (relationships, name) := splitPath path
  (Schema.target? root relationships).bind fun model =>
    (Schema.column? model name).map fun c => ⟨relationships, c⟩

theorem Schema.columnAt?_eq_some_iff {root : E} {path : String} {ref : ColumnRef} :
    Schema.columnAt? root path = some ref ↔
      splitPath path = (ref.path, ref.column.name) ∧
        ∃ model, Schema.target? root ref.path = some model ∧
          Schema.column? model ref.column.name = some ref.column := by
  unfold Schema.columnAt?
  constructor
  · intro h
    obtain ⟨model, hmodel, h⟩ := Option.bind_eq_some_iff.mp h
    obtain ⟨c, hc, rfl⟩ := Option.map_eq_some_iff.mp h
    have hname := (Schema.column?_eq_some hc).2
    exact ⟨Prod.ext rfl hname.symm, model, hmodel, by rw [hname]; exact hc⟩
  · rintro ⟨hsplit, model, hmodel, hc⟩
    rw [hsplit]
    simp [hmodel, hc]

/-- **A path to a column is resolved**, and only joins are added on the way. -/
theorem resolve_of_columnAt? {s : Statement E} (h : Joined s.root s.aliases s.joins) {name : Value}
    {path : String} {ref : ColumnRef} (hname : name.text? = some path)
    (href : Schema.columnAt? s.root path = some ref) :
    ∃ here : Statement.Position E, s.resolve name = .ok (s.upTo here, .column ref) ∧
      Joined s.root here.aliases here.joins ∧ s.joins ⊆ here.joins ∧
      ref.path ∈ sources here.joins := by
  obtain ⟨hsplit, model, hmodel, hc⟩ := Schema.columnAt?_eq_some_iff.mp href
  obtain ⟨here, hfollow, hreached, hjoined⟩ := s.followAll_of_target? h hmodel
  have htarget : here.attribute? ref.column.name = some (.column ref) := by
    simp [Statement.Position.attribute?, Schema.attribute?, hreached, hc]
  refine ⟨here, ?_, hjoined⟩
  unfold Statement.resolve
  rw [Value.textFor_of_text? hname]
  simp only [bind, Except.bind]
  rw [hsplit]
  simp only
  rw [hfollow]
  simp only
  rw [htarget]
  rfl

end ResourceQuery.Sql
