import ResourceQuery.Proofs.Sql.Execution
import ResourceQuery.Proofs.Sql.Nesting

/-!
# Calls on a statement and on a collection in memory

The same calls change a statement and a collection in memory side by side. As long as they name
columns of the root or of single related records, and compare values of the columns' kinds, both
take them, and afterwards the two hold the same tests, the same order and the same window.

Headlines:
* **`CallFits`**: calls that name columns and compare values of their kinds.
* **`Simulates`**: a statement and a collection in memory that describe the same query.
* **`simulates_perform`**: one call keeps them so.
* **`simulates_calls`**: every sequence of calls keeps them so.
-/

namespace ResourceQuery.Sql

variable {E : Type} [Schema E]

/-! ## Calls that fit a schema -/

/-- A dotted path that leads to a column through at most `depth` relationships to single
records. -/
structure Names (root : E) (depth : Nat) (path : String) (ref : ColumnRef) : Prop where
  column : Schema.columnAt? root path = some ref
  short : ref.path.length ≤ depth

/-- An order clause that names a column. -/
def ClauseFits (root : E) (depth : Nat) (clause : Value) : Prop :=
  ∃ name direction path ref, readClause clause = .ok (name, direction) ∧
    name.text? = some path ∧ Names root depth path ref

/-- Calls that narrow, bound and order by columns of the root or of single related records, with
values of the columns' kinds, join along relationships to single records, and set windows. -/
def CallFits (root : E) (depth : Nat) : Call → Prop
  | .restrict criteria equations => criteria = [] ∧ usesReservedName equations = false ∧
      ∀ e ∈ equations, ∃ ref, Names root depth e.1 ref ∧ ref.column.affinity.expects e.2 = true
  | .compare name operator bound => (∃ side, Side.read? operator = some side) ∧
      ∃ path ref, name.text? = some path ∧ Names root depth path ref ∧
        ref.column.affinity.takes bound = true
  | .orderBy clauses => ∀ clause ∈ clauses, ClauseFits root depth clause
  | .reorder clauses => ∀ clause ∈ clauses, ClauseFits root depth clause
  | .leftJoin paths => ∀ v ∈ paths, ∃ path target, v.text? = some path ∧
      Schema.target? root (Text.split '.' path) = some target
  | .includeRelated _ => False
  | .limit count => ∃ n, count = .int n ∧ IsBound n
  | .offset count => ∃ n, count = .int n ∧ IsBound n

/-! ## The same query -/

/-- A path that leads to a column whose table is joined. -/
structure Reads (root : E) (depth : Nat) (joins : List (Join E)) (path : String)
    (ref : ColumnRef) : Prop extends Names root depth path ref where
  joined : ref.path ∈ sources joins

/-- A restriction and a predicate that test a joined column alike. -/
def TestsAlike (root : E) (depth : Nat) (joins : List (Join E)) (r : Restriction E)
    (p : Predicate) : Prop :=
  ∃ path ref, Reads root depth joins path ref ∧ SameTest ref path r p ∧ r.IsBindable

/-- Order clauses by a joined column, in the same direction. -/
def OrdersAlike (root : E) (depth : Nat) (joins : List (Join E)) (c : ColumnRef × Direction)
    (d : Value × Direction) : Prop :=
  ∃ path, d.1.text? = some path ∧ Reads root depth joins path c.1 ∧ c.2 = d.2

/-- A statement and a collection in memory that describe the same query. -/
structure Simulates (root : E) (depth : Nat) (s : Statement E) (m : Memory) : Prop where
  root_eq : s.root = root
  joined : Joined root s.aliases s.joins
  tests : List.Forall₂ (TestsAlike root depth s.joins) s.restrictions m.predicates
  order : List.Forall₂ (OrdersAlike root depth s.joins) s.order m.ordering
  limit : m.limit = Value.ofOption s.limit
  offset : m.offset = Value.ofOption s.offset
  window : ∀ n, s.limit = some n ∨ s.offset = some n → IsBound n

theorem exists_of_forall₂ {α β : Type} {R : α → β → Prop} {xs : List α} {ys : List β}
    (h : List.Forall₂ R xs ys) {x : α} (hx : x ∈ xs) : ∃ y ∈ ys, R x y := by
  induction h with
  | nil => cases hx
  | cons hxy _ ih =>
    rcases List.mem_cons.mp hx with rfl | hx
    · exact ⟨_, List.mem_cons_self, hxy⟩
    · obtain ⟨y, hy, hR⟩ := ih hx
      exact ⟨y, List.mem_cons_of_mem _ hy, hR⟩

section

variable {root : E} {depth : Nat} {s : Statement E} {m : Memory}

/-- Further joins take no table away. -/
theorem Reads.mono {joins joins' : List (Join E)} {path : String} {ref : ColumnRef}
    (h : Reads root depth joins path ref) (hsub : joins ⊆ joins') :
    Reads root depth joins' path ref :=
  ⟨h.toNames, sources_mono hsub h.joined⟩

/-- So they leave the query as it is. -/
theorem Simulates.upTo (h : Simulates root depth s m) {here : Statement.Position E}
    (hjoined : Joined root here.aliases here.joins) (hsub : s.joins ⊆ here.joins) :
    Simulates root depth (s.upTo here) m where
  root_eq := h.root_eq
  joined := hjoined
  tests := h.tests.imp fun _ _ ⟨path, ref, hreads, hsame, hbind⟩ =>
    ⟨path, ref, hreads.mono hsub, hsame, hbind⟩
  order := h.order.imp fun _ _ ⟨path, hname, hreads, hdirection⟩ =>
    ⟨path, hname, hreads.mono hsub, hdirection⟩
  limit := h.limit
  offset := h.offset
  window := h.window

/-- What both sides add to a query: a test. -/
theorem Simulates.restrict (h : Simulates root depth s m) {r : Restriction E} {p : Predicate}
    (hr : TestsAlike root depth s.joins r p) :
    Simulates root depth (s.restrict r) { m with predicates := m.predicates ++ [p] } where
  root_eq := h.root_eq
  joined := h.joined
  tests := List.rel_append h.tests (.cons hr .nil)
  order := h.order
  limit := h.limit
  offset := h.offset
  window := h.window

/-- A path to a column is resolved, and its table is joined then. -/
theorem Simulates.resolve (h : Simulates root depth s m) {name : Value} {path : String}
    {ref : ColumnRef} (hname : name.text? = some path) (href : Names root depth path ref) :
    ∃ s', s.resolve name = .ok (s', .column ref) ∧ Simulates root depth s' m ∧
      Reads root depth s'.joins path ref ∧ s'.restrictions = s.restrictions ∧
        s'.order = s.order := by
  have hroot := h.root_eq
  subst hroot
  obtain ⟨here, hresolve, hjoined, hsub, hsource⟩ :=
    resolve_of_columnAt? h.joined hname href.column
  exact ⟨_, hresolve, h.upTo hjoined hsub, ⟨href, hsource⟩, rfl, rfl⟩

theorem Simulates.isBindable (h : Simulates root depth s m) : ∀ r ∈ s.restrictions,
    r.IsBindable := by
  intro r hr
  obtain ⟨p, -, path, ref, -, -, hbind⟩ := exists_of_forall₂ h.tests hr
  exact hbind

/-! ## One call -/

theorem Simulates.equate (h : Simulates root depth s m) {equation : String × Value}
    {ref : ColumnRef} (href : Names root depth equation.1 ref)
    (hexpects : ref.column.affinity.expects equation.2 = true) :
    ∃ s', s.equate equation = .ok s' ∧ Simulates root depth s'
      { m with predicates := m.predicates ++ [.equation equation.1 equation.2] } := by
  have hname : (Value.str equation.1).text? = some equation.1 := rfl
  obtain ⟨s', hresolve, h', hreads, -⟩ := h.resolve hname href
  obtain ⟨r, hr, hsame, hbind⟩ : ∃ r : Restriction E,
      restrictionFor (.column ref) equation.2 = .ok r ∧
        SameTest ref equation.1 r (.equation equation.1 equation.2) ∧ r.IsBindable :=
    restrictionFor_of_expects hexpects
  refine ⟨s'.restrict r, ?_, h'.restrict ⟨equation.1, ref, hreads, hsame, hbind⟩⟩
  unfold Statement.equate
  rw [hresolve]
  simp only [bind, Except.bind]
  rw [hr]
  rfl

/-- Equations are added one by one on the one side and all at once on the other. -/
theorem Simulates.equations {equations : List (String × Value)}
    (hfits : ∀ e ∈ equations, ∃ ref, Names root depth e.1 ref ∧
      ref.column.affinity.expects e.2 = true) :
    ∀ {s : Statement E} {m : Memory}, Simulates root depth s m →
      ∃ s', equations.foldlM Statement.equate s = .ok s' ∧ Simulates root depth s'
        { m with predicates := m.predicates ++ equations.map fun e => .equation e.1 e.2 } := by
  induction equations with
  | nil =>
    intro s m h
    rw [List.map_nil, List.append_nil]
    exact ⟨s, rfl, h⟩
  | cons e rest ih =>
    intro s m h
    rw [List.forall_mem_cons] at hfits
    obtain ⟨⟨ref, href, hexpects⟩, hrest⟩ := hfits
    obtain ⟨s₁, hs₁, h₁⟩ := h.equate href hexpects
    obtain ⟨s₂, hs₂, h₂⟩ := ih hrest h₁
    rw [List.append_assoc] at h₂
    refine ⟨s₂, ?_, h₂⟩
    rw [List.foldlM_cons, hs₁]
    exact hs₂

theorem Simulates.bound (h : Simulates root depth s m) {name operator bound : Value} {side : Side}
    {path : String} {ref : ColumnRef} (hside : Side.read? operator = some side)
    (hname : name.text? = some path) (href : Names root depth path ref)
    (htakes : ref.column.affinity.takes bound = true) :
    ∃ s', s.bound name operator bound = .ok s' ∧ Simulates root depth s'
      { m with predicates := m.predicates ++ [.beyond name side bound] } := by
  obtain ⟨s', hresolve, h', hreads, -⟩ := h.resolve hname href
  obtain ⟨r, hr, hsame, hbind⟩ := comparisonFor_of_takes (E := E) hname side htakes
  refine ⟨s'.restrict r, ?_, h'.restrict ⟨path, ref, hreads, hsame, hbind⟩⟩
  unfold Statement.bound
  rw [boundOperator_of_read? hside]
  simp only [bind, Except.bind]
  rw [hresolve]
  simp only
  rw [hr]
  rfl

theorem Simulates.orderClause (h : Simulates root depth s m) {clause : Value}
    (hfits : ClauseFits root depth clause) :
    ∃ s' d, s.orderBy clause = .ok s' ∧ readClause clause = .ok d ∧
      Simulates root depth s' { m with ordering := m.ordering ++ [d] } := by
  obtain ⟨name, direction, path, ref, hread, hname, href⟩ := hfits
  obtain ⟨⟨a, d⟩, hunpack, hread'⟩ := Sorting.eq_ok_of_bind hread
  obtain ⟨direction', hdirection, hpure⟩ := Sorting.eq_ok_of_bind hread'
  cases hpure
  obtain ⟨s', hresolve, h', hreads, -, horder⟩ := h.resolve hname href
  refine ⟨{ s' with order := s'.order ++ [(ref, direction)] }, (name, direction), ?_, hread, ?_⟩
  · unfold Statement.orderBy
    rw [hunpack]
    simp only [bind, Except.bind]
    rw [hresolve]
    simp only
    rw [hdirection]
    rfl
  · exact { h' with order := List.rel_append h'.order (.cons ⟨path, hname, hreads, rfl⟩ .nil) }

/-- Order clauses are read one by one on the one side and all at once on the other. -/
theorem Simulates.orderClauses {clauses : List Value}
    (hfits : ∀ clause ∈ clauses, ClauseFits root depth clause) :
    ∀ {s : Statement E} {m : Memory}, Simulates root depth s m →
      ∃ s' ds, clauses.foldlM Statement.orderBy s = .ok s' ∧ clauses.mapM readClause = .ok ds ∧
        Simulates root depth s' { m with ordering := m.ordering ++ ds } := by
  induction clauses with
  | nil =>
    intro s m h
    refine ⟨s, [], rfl, rfl, ?_⟩
    rw [List.append_nil]
    exact h
  | cons clause rest ih =>
    intro s m h
    rw [List.forall_mem_cons] at hfits
    obtain ⟨s₁, d, hs₁, hd, h₁⟩ := h.orderClause hfits.1
    obtain ⟨s₂, ds, hs₂, hds, h₂⟩ := ih hfits.2 h₁
    rw [List.append_assoc, List.singleton_append] at h₂
    refine ⟨s₂, d :: ds, ?_, ?_, h₂⟩
    · rw [List.foldlM_cons, hs₁]
      exact hs₂
    · rw [List.mapM_cons, hd, hds]
      rfl

theorem Simulates.joinPaths {paths : List Value}
    (hfits : ∀ v ∈ paths, ∃ path target, v.text? = some path ∧
      Schema.target? root (Text.split '.' path) = some target) :
    ∀ {s : Statement E}, Simulates root depth s m →
      ∃ s', paths.foldlM Statement.joinPath s = .ok s' ∧ Simulates root depth s' m := by
  induction paths with
  | nil => exact fun {s} h => ⟨s, rfl, h⟩
  | cons v rest ih =>
    intro s h
    rw [List.forall_mem_cons] at hfits
    obtain ⟨⟨path, target, hpath, htarget⟩, hrest⟩ := hfits
    have hroot := h.root_eq
    subst hroot
    obtain ⟨here, hfollow, -, hjoined, hsub, -⟩ := s.followAll_of_target? h.joined htarget
    have hjoin : s.joinPath v = .ok (s.upTo here) := by
      unfold Statement.joinPath Statement.join
      rw [Value.textFor_of_text? hpath]
      simp only [bind, Except.bind]
      rw [hfollow]
      rfl
    obtain ⟨s', hs', h'⟩ := ih hrest (h.upTo hjoined hsub)
    refine ⟨s', ?_, h'⟩
    rw [List.foldlM_cons, hjoin]
    exact hs'

/-- **One call keeps the two alike**: both take it. -/
theorem simulates_perform (h : Simulates root depth s m) {call : Call}
    (hfits : CallFits root depth call) :
    ∃ s' m', s.perform call = .ok s' ∧ m.perform call = .ok m' ∧
      Simulates root depth s' m' ∧ m'.items = m.items := by
  cases call with
  | restrict criteria equations =>
    obtain ⟨rfl, hreserved, hequations⟩ := hfits
    obtain ⟨s', hs', h'⟩ := Simulates.equations hequations h
    refine ⟨s', _, ?_, ?_, h', rfl⟩
    · show s.narrow [] equations = _
      unfold Statement.narrow
      rw [hreserved]
      exact hs'
    · show m.restrict [] equations = _
      unfold Memory.restrict
      rw [hreserved]
      rfl
  | compare name operator bound =>
    obtain ⟨⟨side, hside⟩, path, ref, hname, href, htakes⟩ := hfits
    obtain ⟨s', hs', h'⟩ := h.bound hside hname href htakes
    refine ⟨s', _, hs', ?_, h', rfl⟩
    unfold Memory.perform
    simp only [hside]
  | orderBy clauses =>
    obtain ⟨s', ds, hs', hds, h'⟩ := Simulates.orderClauses hfits h
    refine ⟨s', _, hs', ?_, h', rfl⟩
    unfold Memory.perform
    simp only [hds]
    rfl
  | reorder clauses =>
    have hbare : Simulates root depth { s with order := [] } { m with ordering := [] } :=
      { h with order := .nil }
    obtain ⟨s', ds, hs', hds, h'⟩ := Simulates.orderClauses hfits hbare
    refine ⟨s', _, hs', ?_, h', rfl⟩
    unfold Memory.perform
    simp only [hds]
    rfl
  | leftJoin paths =>
    obtain ⟨s', hs', h'⟩ := Simulates.joinPaths hfits h
    exact ⟨s', { m with joins := m.joins ++ paths }, hs', rfl, { h' with }, rfl⟩
  | includeRelated specs => exact hfits.elim
  | limit count =>
    obtain ⟨n, rfl, hn⟩ := hfits
    refine ⟨{ s with limit := some n }, { m with limit := .int n }, rfl, rfl, ?_, rfl⟩
    exact { h with
      limit := rfl
      window := fun k hk => hk.elim (fun hlimit => by cases hlimit; exact hn)
        fun hoffset => h.window k (Or.inr hoffset) }
  | offset count =>
    obtain ⟨n, rfl, hn⟩ := hfits
    refine ⟨{ s with offset := some n }, { m with offset := .int n }, rfl, rfl, ?_, rfl⟩
    exact { h with
      offset := rfl
      window := fun k hk => hk.elim (fun hlimit => h.window k (Or.inl hlimit))
        fun hoffset => by cases hoffset; exact hn }

/-! ## Runs -/

/-- **Every sequence of calls keeps the two alike.** -/
theorem simulates_calls (database : Database E) {calls : List Call}
    (hfits : ∀ call ∈ calls, CallFits root depth call) :
    ∀ {s : Statement E} {m : Memory}, Simulates root depth s m →
      ∃ s' m', calls.foldlM (fun q call => TableQuery.perform call q) ⟨database, s⟩ =
          .ok ⟨database, s'⟩ ∧
        calls.foldlM (fun m call => Memory.perform call m) m = .ok m' ∧
        Simulates root depth s' m' ∧ m'.items = m.items := by
  induction calls with
  | nil => exact fun {s m} h => ⟨s, m, rfl, rfl, h, rfl⟩
  | cons call rest ih =>
    intro s m h
    rw [List.forall_mem_cons] at hfits
    obtain ⟨s₁, m₁, hs₁, hm₁, h₁, hitems₁⟩ := simulates_perform h hfits.1
    obtain ⟨s₂, m₂, hs₂, hm₂, h₂, hitems₂⟩ := ih hfits.2 h₁
    refine ⟨s₂, m₂, ?_, ?_, h₂, hitems₂.trans hitems₁⟩
    · have hperform : TableQuery.perform call ⟨database, s⟩ = .ok ⟨database, s₁⟩ := by
        unfold TableQuery.perform
        rw [hs₁]
        rfl
      rw [List.foldlM_cons, hperform]
      exact hs₂
    · rw [List.foldlM_cons, hm₁]
      exact hm₂

/-- All records of a model, and the same records in memory. -/
theorem simulates_all (root : E) (depth : Nat) (items : List Value) :
    Simulates root depth { root := root } { items := items } where
  root_eq := rfl
  joined := .nil
  tests := .nil
  order := .nil
  limit := rfl
  offset := rfl
  window n hn := by simp at hn

end

end ResourceQuery.Sql
