import ResourceQuery.Proofs.Sql.Steps

/-!
# The parameters of a sequence of calls

A statement binds the values that its calls compare with, in the order of the calls, and then the
bounds of its window. Null and truth values are written instead of bound. A criterion that is false
for every row makes all comparisons idle, and then none of them is written.

Headlines:
* **`compared`**: the values that a call binds.
* **`operands_conditions`**: what is left out of a statement binds nothing, unless a restriction is
  false for every row.
* **`Binds`**: what restrictions add to the bound values; **`BindsBy`**: what calls do.
* **`parameters_of_calls`**: the parameters of any sequence of calls.
-/

namespace ResourceQuery.Sql

open Statement

/-! ## Values that calls bind -/

/-- The values that a comparison binds. Null and truth values are written. -/
def boundBy : Value → List Value
  | .null | .bool _ => []
  | v => [v]

/-- The values that an equation binds: of a list, each item for itself. -/
def boundByEquation : Value → List Value
  | .list items | .tuple items | .set items => items
  | v => boundBy v

/-- The values that a criterion binds. Only a comparison binds any. -/
def boundByCriterion : Criterion → List Value
  | .column _ _ operand => boundBy operand
  | .test _ | .given _ => []

/-- The values that a call compares with, in its order. -/
def compared : Call → List Value
  | .restrict criteria equations =>
    criteria.flatMap boundByCriterion ++ equations.flatMap fun e => boundByEquation e.2
  | .compare _ _ operand => boundBy operand
  | _ => []

/-- Is a criterion false for every row? -/
def isNever : Criterion → Bool
  | .given (.bool false) => true
  | _ => false

/-- Does a call leave no row, whatever else is asked for? -/
def excludesAll : Call → Bool
  | .restrict criteria _ => criteria.any isNever
  | _ => false

/-- A bound of the window after it is set. -/
def boundAfter (count : Value) : Option Int := (windowNumber count).toOption.getD none

/-- The limit after a call. -/
def limitAfter (limit : Option Int) : Call → Option Int
  | .limit count => boundAfter count
  | _ => limit

/-- The offset after a call. -/
def offsetAfter (offset : Option Int) : Call → Option Int
  | .offset count => boundAfter count
  | _ => offset

/-- The parameters of a window. -/
def windowOf (limit offset : Option Int) : List Value :=
  if limit.isSome || offset.isSome then [.int (limit.getD (-1)), .int (offset.getD 0)] else []

/-- The parameters that calls ask for: the values that they compare with, and then the window that
they leave. -/
def parametersOf (calls : List Call) : List Value :=
  (if calls.any excludesAll then [] else calls.flatMap compared) ++
    windowOf (calls.foldl limitAfter none) (calls.foldl offsetAfter none)

variable {E : Type}

/-! ## Restrictions that are written -/

theorem operands_of_isConstant {r : Restriction E} {truth : Bool} (h : r.isConstant truth = true) :
    r.operands = [] := by
  cases r with
  | constant truth => rfl
  | _ => cases h

/-- **What is not written** binds nothing, unless a restriction is false for every row. -/
theorem operands_conditions (restrictions : List (Restriction E)) :
    (conditions restrictions).flatMap (·.operands) =
      if restrictions.any (·.isConstant false) then [] else restrictions.flatMap (·.operands) := by
  unfold conditions
  split
  · rfl
  · have hfilter : (restrictions.filter fun r => !r.isConstant true).flatMap (·.operands) =
        restrictions.flatMap (·.operands) := by
      induction restrictions with
      | nil => rfl
      | cons r rest ih =>
        cases hconstant : r.isConstant true with
        | true => simp_all [operands_of_isConstant hconstant]
        | false => simp_all
    simp only
    split
    · next hempty =>
      rw [List.isEmpty_iff] at hempty
      rw [hempty] at hfilter
      have hnone : ∀ r ∈ restrictions, r.operands = [] :=
        List.flatMap_eq_nil_iff.mp hfilter.symm
      rw [← hfilter]
      exact List.flatMap_eq_nil_iff.mpr fun r hr => hnone r (List.mem_of_mem_take hr)
    · exact hfilter

/-! ## Values that restrictions bind -/

section

variable {target : AttributeRef E} {r : Restriction E}

theorem boundBy_eq_singleton {v : Value} (hnull : v ≠ .null) (hbool : ∀ b, v ≠ .bool b) :
    boundBy v = [v] := by
  cases v with
  | null => exact absurd rfl hnull
  | bool b => exact absurd rfl (hbool b)
  | _ => rfl

/-- A comparison binds its value. -/
theorem bound_of_comparisonFor {op : ColumnOp} {v : Value} (h : comparisonFor target op v = .ok r) :
    r.operands = boundBy v ∧ r.isConstant false = false := by
  cases target with
  | column ref =>
    rcases columnComparison_eq_ok h with
      ⟨negated, rfl, rfl⟩ | ⟨negated, b, rfl, rfl⟩ | ⟨hnull, hbool, rfl⟩
    · exact ⟨rfl, rfl⟩
    · exact ⟨rfl, rfl⟩
    · exact ⟨(boundBy_eq_singleton hnull hbool).symm, rfl⟩
  | relationship path relationship =>
    obtain ⟨rfl, negated, rfl⟩ := relationshipComparison_eq_ok h
    unfold absence
    split <;> exact ⟨rfl, rfl⟩

/-- An equation binds its value, or the items of its list. -/
theorem bound_of_restrictionFor {v : Value} (h : restrictionFor target v = .ok r) :
    r.operands = boundByEquation v ∧ r.isConstant false = false := by
  have hmembership {items : List Value} (h : membershipFor target items = .ok r) :
      r.operands = items ∧ r.isConstant false = false := by
    cases target with
    | column ref =>
      cases h
      exact ⟨rfl, rfl⟩
    | relationship path relationship => cases h
  cases v with
  | list items => exact hmembership h
  | tuple items => exact hmembership h
  | set items => exact hmembership h
  | _ => exact bound_of_comparisonFor h

variable [Schema E]

theorem bound_of_criterionFor {s : Statement E} {criterion : Criterion}
    (h : s.criterionFor criterion = .ok r) :
    r.operands = boundByCriterion criterion ∧ r.isConstant false = isNever criterion := by
  cases criterion with
  | column name op operand =>
    rw [criterionFor] at h
    split at h
    · exact bound_of_comparisonFor h
    · cases h
  | test holds => cases h
  | given v =>
    cases v with
    | null =>
      cases h
      exact ⟨rfl, rfl⟩
    | bool b =>
      cases h
      cases b <;> exact ⟨rfl, rfl⟩
    | _ => cases h

end

/-! ## Values that calls add -/

/-- What restrictions add to the bound values of a statement, and whether one of them is false for
every row. The window stays. -/
structure Binds (s t : Statement E) (values : List Value) (never : Bool) : Prop where
  values_eq : t.restrictions.flatMap (·.operands) = s.restrictions.flatMap (·.operands) ++ values
  never_eq : t.restrictions.any (·.isConstant false) =
    (s.restrictions.any (·.isConstant false) || never)
  limit_eq : t.limit = s.limit
  offset_eq : t.offset = s.offset

namespace Binds

/-- Joins, order and loads bind nothing. -/
theorem of_eq {s t : Statement E} (hrestrictions : t.restrictions = s.restrictions)
    (hlimit : t.limit = s.limit) (hoffset : t.offset = s.offset) : Binds s t [] false :=
  ⟨by rw [hrestrictions, List.append_nil], by rw [hrestrictions, Bool.or_false], hlimit, hoffset⟩

theorem trans {s₁ s₂ s₃ : Statement E} {values values' : List Value} {never never' : Bool}
    (h : Binds s₁ s₂ values never) (h' : Binds s₂ s₃ values' never') :
    Binds s₁ s₃ (values ++ values') (never || never') where
  values_eq := by rw [h'.values_eq, h.values_eq, List.append_assoc]
  never_eq := by rw [h'.never_eq, h.never_eq, Bool.or_assoc]
  limit_eq := h'.limit_eq.trans h.limit_eq
  offset_eq := h'.offset_eq.trans h.offset_eq

theorem foldl_restrict (s : Statement E) (restrictions : List (Restriction E)) :
    Binds s (restrictions.foldl Statement.restrict s) (restrictions.flatMap (·.operands))
      (restrictions.any (·.isConstant false)) := by
  rw [Statement.foldl_restrict]
  exact ⟨List.flatMap_append, List.any_append, rfl, rfl⟩

theorem restrict (s : Statement E) (r : Restriction E) :
    Binds s (s.restrict r) r.operands (r.isConstant false) := by
  simpa using foldl_restrict s [r]

/-- Steps that bind values one after the other. -/
theorem foldlM {α : Type} {step : Statement E → α → Except QueryError (Statement E)}
    (values : α → List Value)
    (hstep : ∀ s a t, step s a = .ok t → Binds s t (values a) false) {xs : List α}
    {s t : Statement E} (h : xs.foldlM step s = .ok t) : Binds s t (xs.flatMap values) false := by
  refine foldlM_run (motive := fun xs s t => Binds s t (xs.flatMap values) false)
    (fun _ => of_eq rfl rfl rfl) ?_ h
  intro x rest s next t hnext hrest
  exact (hstep _ _ _ hnext).trans hrest

variable [Schema E] {s t : Statement E}

theorem of_resolve {name : Value} {target : AttributeRef E} (h : s.resolve name = .ok (t, target)) :
    Binds s t [] false := by
  obtain ⟨path, reached, -, -, -, rfl⟩ := resolve_eq_ok_iff.mp h
  exact of_eq rfl rfl rfl

theorem of_equate {e : String × Value} (h : s.equate e = .ok t) :
    Binds s t (boundByEquation e.2) false := by
  obtain ⟨next, target, r, hresolve, hr, rfl⟩ := equate_eq_ok_iff.mp h
  obtain ⟨hvalues, hnever⟩ := bound_of_restrictionFor hr
  have hrestrict := restrict next r
  rw [hvalues, hnever] at hrestrict
  exact (of_resolve hresolve).trans hrestrict

theorem of_bound {name operator operand : Value} (h : s.bound name operator operand = .ok t) :
    Binds s t (boundBy operand) false := by
  obtain ⟨op, next, target, r, -, hresolve, hr, rfl⟩ := bound_eq_ok_iff.mp h
  obtain ⟨hvalues, hnever⟩ := bound_of_comparisonFor hr
  have hrestrict := restrict next r
  rw [hvalues, hnever] at hrestrict
  exact (of_resolve hresolve).trans hrestrict

theorem of_orderBy {clause : Value} (h : s.orderBy clause = .ok t) : Binds s t [] false := by
  obtain ⟨name, given, next, ref, direction, -, hresolve, -, rfl⟩ := orderBy_eq_ok_iff.mp h
  exact (of_resolve hresolve).trans (of_eq rfl rfl rfl)

theorem of_joinPath {path : Value} (h : s.joinPath path = .ok t) : Binds s t [] false := by
  obtain ⟨text, reached, -, -, rfl⟩ := joinPath_eq_ok_iff.mp h
  exact of_eq rfl rfl rfl

theorem of_narrow {criteria : List Criterion} {equations : List (String × Value)}
    (h : s.narrow criteria equations = .ok t) :
    Binds s t (compared (.restrict criteria equations))
      (excludesAll (.restrict criteria equations)) := by
  obtain ⟨-, restrictions, hrestrictions, hrun⟩ := narrow_eq_ok_iff.mp h
  have hoperands : restrictions.flatMap (·.operands) = criteria.flatMap boundByCriterion := by
    rw [List.flatMap_def, List.flatMap_def,
      map_eq_of_mapM (fun _ _ h => (bound_of_criterionFor h).1) hrestrictions]
  have hnever : restrictions.any (·.isConstant false) = criteria.any isNever := by
    have hmap := map_eq_of_mapM (fun _ _ h => (bound_of_criterionFor h).2) hrestrictions
    simpa [List.any_map, Function.comp_def] using congrArg (List.any · id) hmap
  have hcriteria := foldl_restrict s restrictions
  rw [hoperands, hnever] at hcriteria
  have hequations := foldlM (fun e : String × Value => boundByEquation e.2)
    (fun _ _ _ => of_equate) hrun
  have hboth := hcriteria.trans hequations
  rwa [Bool.or_false] at hboth

end Binds

/-- What calls make of the bound values and of the window. -/
structure BindsBy (calls : List Call) (s t : Statement E) : Prop where
  values_eq : t.restrictions.flatMap (·.operands) =
    s.restrictions.flatMap (·.operands) ++ calls.flatMap compared
  never_eq : t.restrictions.any (·.isConstant false) =
    (s.restrictions.any (·.isConstant false) || calls.any excludesAll)
  limit_eq : t.limit = calls.foldl limitAfter s.limit
  offset_eq : t.offset = calls.foldl offsetAfter s.offset

namespace BindsBy

variable {s t : Statement E} {call : Call}

/-- A call that sets no bound of the window. -/
theorem of_binds (h : Binds s t (compared call) (excludesAll call))
    (hlimit : limitAfter s.limit call = s.limit) (hoffset : offsetAfter s.offset call = s.offset) :
    BindsBy [call] s t where
  values_eq := by rw [h.values_eq, List.flatMap_singleton]
  never_eq := by rw [h.never_eq, List.any_cons, List.any_nil, Bool.or_false]
  limit_eq := h.limit_eq.trans hlimit.symm
  offset_eq := h.offset_eq.trans hoffset.symm

/-- Calls after others. -/
theorem trans {s₁ s₂ s₃ : Statement E} {calls calls' : List Call} (h : BindsBy calls s₁ s₂)
    (h' : BindsBy calls' s₂ s₃) : BindsBy (calls ++ calls') s₁ s₃ where
  values_eq := by rw [h'.values_eq, h.values_eq, List.append_assoc, List.flatMap_append]
  never_eq := by rw [h'.never_eq, h.never_eq, Bool.or_assoc, List.any_append]
  limit_eq := by rw [h'.limit_eq, h.limit_eq, List.foldl_append]
  offset_eq := by rw [h'.offset_eq, h.offset_eq, List.foldl_append]

variable [Schema E]

/-- **One call** binds the values that it compares with, or sets a bound of the window. -/
theorem of_perform (h : s.perform call = .ok t) : BindsBy [call] s t := by
  cases call with
  | restrict criteria equations => exact of_binds (Binds.of_narrow h) rfl rfl
  | compare name operator operand => exact of_binds (Binds.of_bound h) rfl rfl
  | orderBy clauses =>
    have hsteps := Binds.foldlM (fun _ => []) (fun _ _ _ => Binds.of_orderBy) h
    rw [flatMap_nil_right] at hsteps
    exact of_binds hsteps rfl rfl
  | reorder clauses =>
    have hsteps := Binds.foldlM (fun _ => []) (fun _ _ _ => Binds.of_orderBy) h
    rw [flatMap_nil_right] at hsteps
    have hcleared : Binds s { s with order := [] } [] false := Binds.of_eq rfl rfl rfl
    exact of_binds (hcleared.trans hsteps) rfl rfl
  | leftJoin paths =>
    have hsteps := Binds.foldlM (fun _ => []) (fun _ _ _ => Binds.of_joinPath) h
    rw [flatMap_nil_right] at hsteps
    exact of_binds hsteps rfl rfl
  | includeRelated specs =>
    obtain ⟨loads, -, h⟩ := Sorting.eq_ok_of_bind h
    cases h
    exact of_binds (Binds.of_eq rfl rfl rfl) rfl rfl
  | limit count =>
    obtain ⟨limit, hlimit, h⟩ := Sorting.eq_ok_of_bind h
    cases h
    refine ⟨?_, ?_, ?_, rfl⟩
    · exact (List.append_nil _).symm
    · exact (Bool.or_false _).symm
    · show limit = boundAfter count
      rw [boundAfter, hlimit]
      rfl
  | offset count =>
    obtain ⟨offset, hoffset, h⟩ := Sorting.eq_ok_of_bind h
    cases h
    refine ⟨?_, ?_, rfl, ?_⟩
    · exact (List.append_nil _).symm
    · exact (Bool.or_false _).symm
    · show offset = boundAfter count
      rw [boundAfter, hoffset]
      rfl

/-- **Any calls** do. -/
theorem of_foldlM {calls : List Call} (h : calls.foldlM Statement.perform s = .ok t) :
    BindsBy calls s t := by
  refine foldlM_run (motive := BindsBy) ?_ ?_ h
  · exact fun s => ⟨(List.append_nil _).symm, (Bool.or_false _).symm, rfl, rfl⟩
  · intro call rest s next t hnext hrest
    exact (of_perform hnext).trans hrest

end BindsBy

/-- **The parameters of a sequence of calls** on all records of a model: the values that the calls
compare with, in their order, and then the window. Where a call excludes every row, the comparisons
are not written. -/
theorem parameters_of_calls [Schema E] {root : E} {calls : List Call} {s : Statement E}
    (h : calls.foldlM Statement.perform { root := root } = .ok s) :
    s.parameters = parametersOf calls := by
  have hbinds := BindsBy.of_foldlM h
  have hnever : s.restrictions.any (·.isConstant false) = calls.any excludesAll := hbinds.never_eq
  have hvalues : s.restrictions.flatMap (·.operands) = calls.flatMap compared := hbinds.values_eq
  have hwindow : s.windowParameters =
      windowOf (calls.foldl limitAfter none) (calls.foldl offsetAfter none) := by
    show windowOf s.limit s.offset = _
    rw [hbinds.limit_eq, hbinds.offset_eq]
  rw [parameters, hwindow, operands, operands_conditions, hnever, hvalues, parametersOf]

end ResourceQuery.Sql
