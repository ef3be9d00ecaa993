import ResourceQuery.Sorting
import ResourceQuery.Sql.TableQuery

/-!
# What calls make of a statement

Everything that a call can do to a statement, guards included: a path is followed and its joins are
added, a restriction is added, or a clause of the order, or a bound of the window is set. What a
statement keeps through any sequence of calls is read off from here.

Headlines:
* **`foldlM_run`**: a run of steps that may fail, from its first step on.
* **`columnComparison_eq_ok`**, **`relationshipComparison_eq_ok`**: the restrictions that
  comparisons make.
* **`resolve_eq_ok_iff`**: what a dotted path is resolved to.
* **`equate_eq_ok_iff`**, **`bound_eq_ok_iff`**, **`orderBy_eq_ok_iff`**, **`joinPath_eq_ok_iff`**:
  the parts of calls.
* **`narrow_eq_ok_iff`**: criteria, then equations.
* **`statement_of_calls`**, **`calls_of_statement`**: calls on a collection are calls on its
  statement.
-/

namespace ResourceQuery.Sql

open Sorting (eq_ok_of_bind)

variable {E : Type}

/-! ## Computations that may fail -/

theorem bind_eq_ok {ε β γ : Type} {x : Except ε β} {f : β → Except ε γ} {b : β} {c : γ}
    (hx : x = .ok b) (hf : f b = .ok c) : (x >>= f) = .ok c := by
  rw [hx]
  exact hf

/-- A run of steps, from its first step on. -/
theorem foldlM_run {ε α σ : Type} {step : σ → α → Except ε σ} {motive : List α → σ → σ → Prop}
    (nil : ∀ s, motive [] s s)
    (cons : ∀ x rest s next t, step s x = .ok next → motive rest next t → motive (x :: rest) s t)
    {xs : List α} : ∀ {s t}, xs.foldlM step s = .ok t → motive xs s t := by
  induction xs with
  | nil =>
    intro s t h
    cases h
    exact nil s
  | cons x rest ih =>
    intro s t h
    rw [List.foldlM_cons] at h
    obtain ⟨next, hnext, hrest⟩ := eq_ok_of_bind h
    exact cons x rest s next t hnext (ih hrest)

theorem flatMap_nil_right {α β : Type} (xs : List α) : (xs.flatMap fun _ => ([] : List β)) = [] :=
  List.flatMap_eq_nil_iff.mpr fun _ _ => rfl

/-- What is known of each outcome of a list of computations. -/
theorem map_eq_of_mapM {ε α β γ : Type} {f : α → Except ε β} {g : β → γ} {k : α → γ}
    (hf : ∀ x y, f x = .ok y → g y = k x) {xs : List α} :
    ∀ {ys : List β}, xs.mapM f = .ok ys → ys.map g = xs.map k := by
  induction xs with
  | nil =>
    intro ys h
    cases h
    rfl
  | cons x rest ih =>
    intro ys h
    rw [List.mapM_cons] at h
    obtain ⟨y, hy, h⟩ := eq_ok_of_bind h
    obtain ⟨others, hothers, h⟩ := eq_ok_of_bind h
    cases h
    rw [List.map_cons, List.map_cons, hf x y hy, ih hothers]

/-- What is known of every outcome holds of all. -/
theorem forall_of_mapM {ε α β : Type} {f : α → Except ε β} {P : β → Prop}
    (hf : ∀ x y, f x = .ok y → P y) {xs : List α} :
    ∀ {ys : List β}, xs.mapM f = .ok ys → ∀ y ∈ ys, P y := by
  induction xs with
  | nil =>
    intro ys h y hy
    cases h
    cases hy
  | cons x rest ih =>
    intro ys h
    rw [List.mapM_cons] at h
    obtain ⟨y, hy, h⟩ := eq_ok_of_bind h
    obtain ⟨others, hothers, h⟩ := eq_ok_of_bind h
    cases h
    exact List.forall_mem_cons.mpr ⟨hf x y hy, ih hothers⟩

/-! ## Comparisons -/

/-- A column is null or not, is a truth value or not, or is compared with a parameter. -/
theorem columnComparison_eq_ok {ref : ColumnRef} {op : ColumnOp} {v : Value} {r : Restriction E}
    (h : columnComparison ref op v = .ok r) :
    (∃ negated, v = .null ∧ r = .null ref negated) ∨
      (∃ negated b, v = .bool b ∧ r = .flag ref negated b) ∨
      (v ≠ .null ∧ (∀ b, v ≠ .bool b) ∧ r = .compare ref op v) := by
  cases v with
  | null => cases op <;> cases h <;> exact Or.inl ⟨_, rfl, rfl⟩
  | bool b => cases op <;> cases h <;> exact Or.inr (Or.inl ⟨_, b, rfl, rfl⟩)
  | _ => cases op <;> cases h <;> exact Or.inr (Or.inr ⟨nofun, nofun, rfl⟩)

/-- A relationship is absent or not. -/
theorem relationshipComparison_eq_ok {path : List String} {relationship : Relationship E}
    {op : ColumnOp} {v : Value} {r : Restriction E}
    (h : relationshipComparison path relationship op v = .ok r) :
    v = .null ∧ ∃ negated, r = absence path relationship negated := by
  cases v with
  | null => cases op <;> cases h <;> exact ⟨rfl, _, rfl⟩
  | _ => cases op <;> cases h

/-- What is written of restrictions is one of them, or false for every row. -/
theorem mem_conditions {rs : List (Restriction E)} {r : Restriction E} (h : r ∈ conditions rs) :
    r ∈ rs ∨ r = .constant (some false) := by
  unfold conditions at h
  split at h
  · exact Or.inr (List.mem_singleton.mp h)
  · simp only at h
    split at h
    · exact Or.inl (List.mem_of_mem_take h)
    · exact Or.inl (List.mem_filter.mp h).1

/-! ## Steps of a statement -/

namespace Statement

variable [Schema E] {s t : Statement E}

/-- A dotted path is resolved to an attribute where its relationships have led to, in the statement
with the joins on the way. -/
theorem resolve_eq_ok_iff {name : Value} {target : AttributeRef E} :
    s.resolve name = .ok (t, target) ↔
      ∃ path reached, name.spelling? = some path ∧ s.followAll (splitPath path).1 = .ok reached ∧
        reached.attribute? (splitPath path).2 = some target ∧
        t = s.upTo reached := by
  constructor
  · intro h
    obtain ⟨path, hpath, h⟩ := eq_ok_of_bind h
    obtain ⟨reached, hreached, h⟩ := eq_ok_of_bind h
    split at h
    · next found hfound =>
      cases h
      exact ⟨path, reached, Value.textFor_eq_ok_iff.mp hpath, hreached, hfound, rfl⟩
    · cases h
  · rintro ⟨path, reached, hpath, hreached, htarget, rfl⟩
    refine bind_eq_ok (Value.textFor_eq_ok_iff.mpr hpath) (bind_eq_ok hreached ?_)
    split
    · next found hfound =>
      cases hfound.symm.trans htarget
      rfl
    · next hnone => cases hnone.symm.trans htarget

/-- An equation follows its path and adds a restriction. -/
theorem equate_eq_ok_iff {e : String × Value} :
    s.equate e = .ok t ↔ ∃ next target r, s.resolve (.str e.1) = .ok (next, target) ∧
      restrictionFor target e.2 = .ok r ∧ t = next.restrict r := by
  constructor
  · intro h
    obtain ⟨⟨next, target⟩, hresolve, h⟩ := eq_ok_of_bind h
    obtain ⟨r, hr, h⟩ := eq_ok_of_bind h
    cases h
    exact ⟨next, target, r, hresolve, hr, rfl⟩
  · rintro ⟨next, target, r, hresolve, hr, rfl⟩
    exact bind_eq_ok hresolve (bind_eq_ok hr rfl)

/-- So does a bound. -/
theorem bound_eq_ok_iff {name operator operand : Value} :
    s.bound name operator operand = .ok t ↔ ∃ op next target r,
      boundOperator operator = .ok op ∧ s.resolve name = .ok (next, target) ∧
        comparisonFor target op operand = .ok r ∧ t = next.restrict r := by
  constructor
  · intro h
    obtain ⟨op, hop, h⟩ := eq_ok_of_bind h
    obtain ⟨⟨next, target⟩, hresolve, h⟩ := eq_ok_of_bind h
    obtain ⟨r, hr, h⟩ := eq_ok_of_bind h
    cases h
    exact ⟨op, next, target, r, hop, hresolve, hr, rfl⟩
  · rintro ⟨op, next, target, r, hop, hresolve, hr, rfl⟩
    exact bind_eq_ok hop (bind_eq_ok hresolve (bind_eq_ok hr rfl))

/-- An order clause follows its path to a column. -/
theorem orderBy_eq_ok_iff {clause : Value} :
    s.orderBy clause = .ok t ↔ ∃ name given next ref direction,
      unpackClause clause = .ok (name, given) ∧ s.resolve name = .ok (next, .column ref) ∧
        handedDirection given = .ok direction ∧
        t = { next with order := next.order ++ [(ref, direction)] } := by
  constructor
  · intro h
    obtain ⟨⟨name, given⟩, hclause, h⟩ := eq_ok_of_bind h
    obtain ⟨⟨next, target⟩, hresolve, h⟩ := eq_ok_of_bind h
    obtain ⟨direction, hdirection, h⟩ := eq_ok_of_bind h
    cases target with
    | column ref =>
      cases h
      exact ⟨name, given, next, ref, direction, hclause, hresolve, hdirection, rfl⟩
    | relationship path r => cases h
  · rintro ⟨name, given, next, ref, direction, hclause, hresolve, hdirection, rfl⟩
    exact bind_eq_ok hclause (bind_eq_ok hresolve (bind_eq_ok hdirection rfl))

/-- A path that is joined is followed as a whole. -/
theorem joinPath_eq_ok_iff {path : Value} :
    s.joinPath path = .ok t ↔ ∃ text reached, path.spelling? = some text ∧
      s.followAll (Text.split '.' text) = .ok reached ∧ t = s.upTo reached := by
  constructor
  · intro h
    obtain ⟨text, htext, h⟩ := eq_ok_of_bind h
    obtain ⟨reached, hreached, h⟩ := eq_ok_of_bind h
    cases h
    exact ⟨text, reached, Value.textFor_eq_ok_iff.mp htext, hreached, rfl⟩
  · rintro ⟨text, reached, htext, hreached, rfl⟩
    exact bind_eq_ok (Value.textFor_eq_ok_iff.mpr htext) (bind_eq_ok hreached rfl)

/-- Criteria are added as they are, and then equations. -/
theorem narrow_eq_ok_iff {criteria : List Criterion} {equations : List (String × Value)} :
    s.narrow criteria equations = .ok t ↔ usesReservedName equations = false ∧
      ∃ restrictions, criteria.mapM s.criterionFor = .ok restrictions ∧
        equations.foldlM equate (restrictions.foldl restrict s) = .ok t := by
  unfold narrow
  cases usesReservedName equations with
  | true => exact ⟨nofun, fun h => nomatch h.1⟩
  | false =>
    constructor
    · intro h
      exact ⟨rfl, eq_ok_of_bind h⟩
    · rintro ⟨-, restrictions, hrestrictions, h⟩
      exact bind_eq_ok hrestrictions h

omit [Schema E] in
theorem foldl_restrict (s : Statement E) (restrictions : List (Restriction E)) :
    restrictions.foldl restrict s = { s with restrictions := s.restrictions ++ restrictions } := by
  induction restrictions generalizing s with
  | nil => rw [List.append_nil]; rfl
  | cons r rest ih =>
    rw [List.foldl_cons, ih]
    simp [restrict]

end Statement

/-! ## Collections -/

variable [Schema E]

/-- Calls on a collection are calls on its statement. -/
theorem statement_of_calls {calls : List Call} {q q' : TableQuery E}
    (h : calls.foldlM (fun q call => TableQuery.perform call q) q = .ok q') :
    calls.foldlM Statement.perform q.statement = .ok q'.statement := by
  refine foldlM_run (motive := fun calls q q' =>
    calls.foldlM Statement.perform q.statement = .ok q'.statement) (fun _ => rfl) ?_ h
  intro call rest q next q' hnext hrest
  obtain ⟨s, hs, hnext⟩ := eq_ok_of_bind hnext
  cases hnext
  exact bind_eq_ok hs hrest

/-- A collection answers the calls that its statement does. -/
theorem calls_of_statement {calls : List Call} {s s' : Statement E} (db : Database E)
    (h : calls.foldlM Statement.perform s = .ok s') :
    calls.foldlM (fun q call => TableQuery.perform call q) ⟨db, s⟩ = .ok ⟨db, s'⟩ := by
  refine foldlM_run (motive := fun calls s s' =>
    calls.foldlM (fun q call => TableQuery.perform call q) ⟨db, s⟩ = .ok ⟨db, s'⟩)
    (fun _ => rfl) ?_ h
  intro call rest s next s' hnext hrest
  exact bind_eq_ok (bind_eq_ok hnext rfl) hrest

end ResourceQuery.Sql
