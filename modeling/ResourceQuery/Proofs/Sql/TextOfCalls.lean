import Mathlib.Data.List.Forall2
import ResourceQuery.Proofs.Sql.Parameters
import ResourceQuery.Sql.Sample

/-!
# The text of a sequence of calls

The text of a statement shows which columns are compared and how, but no value that is bound. Two
sequences of the same calls that differ in the compared numbers and texts, or in the bounds of the
window, therefore get the same text.

Headlines:
* **`Statement.blank`**: a statement without the values that it binds; by **`text_blank`** its text
  is the same.
* **`AlikeCall`**: calls that differ in values that are bound.
* **`perform_alike`**: such calls keep two statements the same but for the values.
* **`text_of_alike_calls`**: the text of such sequences of calls, and the parameters of both.
-/

namespace ResourceQuery.Sql

open Statement

variable {E : Type}

/-! ## Statements without values -/

/-- A restriction without the values that it binds. -/
def Restriction.blank : Restriction E → Restriction E
  | .compare ref op _ => .compare ref op .null
  | .among ref operands => .among ref (operands.map fun _ => .null)
  | r => r

/-- A statement without the values that it binds. -/
def Statement.blank (s : Statement E) : Statement E :=
  { s with
    restrictions := s.restrictions.map Restriction.blank
    limit := s.limit.map fun _ => 0
    offset := s.offset.map fun _ => 0 }

theorem isConstant_blank (r : Restriction E) (truth : Bool) :
    r.blank.isConstant truth = r.isConstant truth := by
  cases r <;> rfl

theorem conditions_map_blank (restrictions : List (Restriction E)) :
    conditions (restrictions.map Restriction.blank) =
      (conditions restrictions).map Restriction.blank := by
  have hany : (restrictions.map Restriction.blank).any (·.isConstant false) =
      restrictions.any (·.isConstant false) := by
    simp [List.any_map, Function.comp_def, isConstant_blank]
  have hfilter : (restrictions.map Restriction.blank).filter (fun r => !r.isConstant true) =
      (restrictions.filter fun r => !r.isConstant true).map Restriction.blank := by
    simp [List.filter_map, Function.comp_def, isConstant_blank]
  unfold conditions
  simp only [hany, hfilter, List.isEmpty_map]
  split
  · rfl
  · split
    · exact List.map_take.symm
    · rfl

section

variable [Schema E]

theorem operandsText_map_blank (operands : List Value) :
    operandsText (operands.map fun _ => Value.null) = operandsText operands := by
  simp [operandsText]

theorem restrictionText_blank (s : Statement E) (r : Restriction E) :
    s.blank.restrictionText r.blank = s.restrictionText r := by
  cases r with
  | among ref operands =>
    show s.refText ref ++ " IN (" ++ operandsText (operands.map fun _ => Value.null) ++ ")" = _
    rw [operandsText_map_blank]
    rfl
  | _ => rfl

theorem conjunctText_blank (s : Statement E) (r : Restriction E) :
    s.blank.conjunctText r.blank = s.conjunctText r := by
  cases r with
  | related path r negated => cases negated <;> rfl
  | among ref operands => exact restrictionText_blank s (.among ref operands)
  | _ => rfl

theorem conditionsText_blank (s : Statement E) : s.blank.conditionsText = s.conditionsText := by
  unfold conditionsText
  rw [show s.blank.restrictions = s.restrictions.map Restriction.blank from rfl,
    conditions_map_blank]
  rcases conditions s.restrictions with - | ⟨r, - | ⟨r', rest⟩⟩
  · rfl
  · exact congrArg (fun text => [text]) (restrictionText_blank s r)
  · show List.map _ (List.map _ (r :: r' :: rest)) = List.map _ (r :: r' :: rest)
    rw [List.map_map]
    exact List.map_congr_left fun r _ => conjunctText_blank s r

/-- **No value that is bound** stands in the text. -/
theorem text_blank (s : Statement E) : s.blank.text = s.text := by
  have hwindow : s.blank.hasWindow = s.hasWindow := by
    simp [hasWindow, blank]
  unfold text
  rw [conditionsText_blank, hwindow]
  rfl

end

/-! ## Calls that differ in values -/

/-- A number or a text. -/
def isScalar : Value → Bool
  | .int _ | .float _ | .str _ | .direction _ => true
  | _ => false

/-- The same values, or two numbers or texts. -/
def AlikeItem (v w : Value) : Prop := v = w ∨ (isScalar v = true ∧ isScalar w = true)

/-- Values that a comparison may differ in: numbers and texts, alone or as the items of lists of the
same length. -/
inductive Alike : Value → Value → Prop
  | item {v w : Value} (h : AlikeItem v w) : Alike v w
  | list {vs ws : List Value} (h : List.Forall₂ AlikeItem vs ws) : Alike (.list vs) (.list ws)
  | tuple {vs ws : List Value} (h : List.Forall₂ AlikeItem vs ws) : Alike (.tuple vs) (.tuple ws)
  | set {vs ws : List Value} (h : List.Forall₂ AlikeItem vs ws) : Alike (.set vs) (.set ws)

/-- Criteria that differ in compared values. -/
inductive AlikeCriterion : Criterion → Criterion → Prop
  | same (c : Criterion) : AlikeCriterion c c
  | column (name : String) (op : ColumnOp) {v w : Value} (h : Alike v w) :
    AlikeCriterion (.column name op v) (.column name op w)

/-- Equations that differ in compared values. -/
def AlikeEquation (e f : String × Value) : Prop := e.1 = f.1 ∧ Alike e.2 f.2

/-- Calls that differ in compared values and in the integers that are set as bounds of the
window. -/
inductive AlikeCall : Call → Call → Prop
  | same (call : Call) : AlikeCall call call
  | restrict {criteria criteria' : List Criterion} {equations equations' : List (String × Value)}
    (hcriteria : List.Forall₂ AlikeCriterion criteria criteria')
    (hequations : List.Forall₂ AlikeEquation equations equations') :
    AlikeCall (.restrict criteria equations) (.restrict criteria' equations')
  | compare (name operator : Value) {v w : Value} (h : Alike v w) :
    AlikeCall (.compare name operator v) (.compare name operator w)
  | limit (m n : Int) : AlikeCall (.limit (.int m)) (.limit (.int n))
  | offset (m n : Int) : AlikeCall (.offset (.int m)) (.offset (.int n))

theorem Alike.refl (v : Value) : Alike v v := .item (Or.inl rfl)

theorem boundBy_of_isScalar {v : Value} (h : isScalar v = true) : boundBy v = [v] := by
  cases v with
  | null => cases h
  | bool b => cases h
  | _ => rfl

/-- Values that a comparison may differ in are bound. -/
theorem Alike.eq_or_bound {v w : Value} (h : Alike v w) :
    v = w ∨ (boundBy v = [v] ∧ boundBy w = [w]) := by
  cases h with
  | item h => exact h.imp_right fun ⟨hv, hw⟩ => ⟨boundBy_of_isScalar hv, boundBy_of_isScalar hw⟩
  | list h => exact Or.inr ⟨rfl, rfl⟩
  | tuple h => exact Or.inr ⟨rfl, rfl⟩
  | set h => exact Or.inr ⟨rfl, rfl⟩

/-! ## Restrictions of alike values -/

section

variable {target : AttributeRef E} {r : Restriction E}

/-- A column is compared with any value that is bound. -/
theorem columnComparison_of_boundBy {ref : ColumnRef} {op : ColumnOp} {v : Value}
    (h : boundBy v = [v]) :
    (columnComparison ref op v : Except QueryError (Restriction E)) = .ok (.compare ref op v) := by
  cases v with
  | null => cases h
  | bool b => cases h
  | _ => cases op <;> rfl

/-- Comparisons with alike values are the same but for these. -/
theorem comparisonFor_alike {op : ColumnOp} {v w : Value} (h : Alike v w)
    (hr : comparisonFor target op v = .ok r) :
    ∃ r', comparisonFor target op w = .ok r' ∧ r.blank = r'.blank := by
  rcases h.eq_or_bound with rfl | ⟨hv, hw⟩
  · exact ⟨r, hr, rfl⟩
  · cases target with
    | column ref =>
      rw [comparisonFor, columnComparison_of_boundBy hv] at hr
      cases hr
      exact ⟨_, columnComparison_of_boundBy hw, rfl⟩
    | relationship path relationship =>
      obtain ⟨rfl, -⟩ := relationshipComparison_eq_ok hr
      cases hv

theorem restrictionFor_of_isScalar {v : Value} (h : isScalar v = true) :
    restrictionFor target v = comparisonFor target .eq v := by
  cases v with
  | list items => cases h
  | tuple items => cases h
  | set items => cases h
  | _ => rfl

/-- So are equations with alike values. -/
theorem restrictionFor_alike {v w : Value} (h : Alike v w)
    (hr : restrictionFor target v = .ok r) :
    ∃ r', restrictionFor target w = .ok r' ∧ r.blank = r'.blank := by
  have hmembership {vs ws : List Value} (h : List.Forall₂ AlikeItem vs ws)
      (hr : membershipFor target vs = .ok r) :
      ∃ r', membershipFor target ws = .ok r' ∧ r.blank = r'.blank := by
    cases target with
    | column ref =>
      cases hr
      refine ⟨_, rfl, ?_⟩
      show Restriction.among ref _ = .among ref _
      rw [List.map_const', List.map_const', h.length_eq]
    | relationship path relationship => cases hr
  cases h with
  | item h =>
    rcases h with rfl | ⟨hv, hw⟩
    · exact ⟨r, hr, rfl⟩
    · rw [restrictionFor_of_isScalar hv] at hr
      rw [restrictionFor_of_isScalar hw]
      exact comparisonFor_alike (.item (Or.inr ⟨hv, hw⟩)) hr
  | list h => exact hmembership h hr
  | tuple h => exact hmembership h hr
  | set h => exact hmembership h hr

end

/-! ## Two runs

Both runs are followed at once: whatever one step leads to, the other leads to the same but for the
values. -/

/-- Two computations over lists whose items are related. -/
theorem mapM_alike {ε α β : Type} {A : α → α → Prop} {B : β → β → Prop} {f f' : α → Except ε β}
    (hstep : ∀ x x' y, A x x' → f x = .ok y → ∃ y', f' x' = .ok y' ∧ B y y')
    {xs xs' : List α} (h : List.Forall₂ A xs xs') :
    ∀ {ys}, xs.mapM f = .ok ys → ∃ ys', xs'.mapM f' = .ok ys' ∧ List.Forall₂ B ys ys' := by
  induction h with
  | nil =>
    intro ys hys
    cases hys
    exact ⟨[], rfl, .nil⟩
  | cons hx _ ih =>
    intro ys hys
    rw [List.mapM_cons] at hys
    obtain ⟨y, hy, hys⟩ := Sorting.eq_ok_of_bind hys
    obtain ⟨rest, hrest, hys⟩ := Sorting.eq_ok_of_bind hys
    cases hys
    obtain ⟨y', hy', hb⟩ := hstep _ _ y hx hy
    obtain ⟨rest', hrest', hbs⟩ := ih hrest
    refine ⟨y' :: rest', ?_, .cons hb hbs⟩
    rw [List.mapM_cons]
    exact bind_eq_ok hy' (bind_eq_ok hrest' rfl)

/-- A step that leads from statements that are the same but for the values that they bind to such
statements, if what it is given is related. -/
def StepsAlike {α : Type} (A : α → α → Prop)
    (step : Statement E → α → Except QueryError (Statement E)) : Prop :=
  ∀ ⦃s s' : Statement E⦄ ⦃x x' : α⦄, s.blank = s'.blank → A x x' → ∀ ⦃t⦄, step s x = .ok t →
    ∃ t', step s' x' = .ok t' ∧ t.blank = t'.blank

/-- Steps one after the other. -/
theorem StepsAlike.foldlM {α : Type} {A : α → α → Prop}
    {step : Statement E → α → Except QueryError (Statement E)} (hstep : StepsAlike A step) :
    StepsAlike (List.Forall₂ A) fun s xs => xs.foldlM step s := by
  intro s s' xs xs' hs h
  induction h generalizing s s' with
  | nil =>
    intro t hrun
    cases hrun
    exact ⟨s', rfl, hs⟩
  | cons hx _ ih =>
    intro t hrun
    simp only [List.foldlM_cons] at hrun ⊢
    obtain ⟨next, hnext, hrest⟩ := Sorting.eq_ok_of_bind hrun
    obtain ⟨next', hnext', hs'⟩ := hstep hs hx hnext
    obtain ⟨t', hrest', ht⟩ := ih hs' hrest
    exact ⟨t', bind_eq_ok hnext' hrest', ht⟩

/-- Steps that are given the same. -/
theorem StepsAlike.foldlM_self {α : Type} {step : Statement E → α → Except QueryError (Statement E)}
    (hstep : StepsAlike (· = ·) step) (xs : List α) {s s' t : Statement E}
    (hs : s.blank = s'.blank) (h : xs.foldlM step s = .ok t) :
    ∃ t', xs.foldlM step s' = .ok t' ∧ t.blank = t'.blank :=
  hstep.foldlM hs (List.forall₂_same.mpr fun _ _ => rfl) h

variable {s s' t : Statement E}

theorem restrict_alike (hs : s.blank = s'.blank) {r r' : Restriction E} (hr : r.blank = r'.blank) :
    (s.restrict r).blank = (s'.restrict r').blank := by
  have h (s : Statement E) (r : Restriction E) :
      (s.restrict r).blank = s.blank.restrict r.blank := by
    simp [blank, restrict]
  rw [h, h, hs, hr]

theorem foldl_restrict_alike (hs : s.blank = s'.blank)
    {restrictions restrictions' : List (Restriction E)}
    (h : List.Forall₂ (fun r r' => r.blank = r'.blank) restrictions restrictions') :
    (restrictions.foldl restrict s).blank = (restrictions'.foldl restrict s').blank := by
  induction h generalizing s s' with
  | nil => exact hs
  | cons hr _ ih => exact ih (restrict_alike hs hr)

-- What is the same but for the values stays so under the same change, since the change is one of the
-- blank statement.
theorem upTo_alike (hs : s.blank = s'.blank) (here : Position E) :
    (s.upTo here).blank = (s'.upTo here).blank :=
  congrArg (·.upTo here) hs

theorem start_alike (hs : s.blank = s'.blank) : s'.start = s.start :=
  (congrArg start hs).symm

section

variable [Schema E]

theorem followAll_alike (hs : s.blank = s'.blank) (names : List String) :
    s'.followAll names = s.followAll names := by
  rw [followAll, followAll, start_alike hs]

/-- A path is resolved to the same attribute. -/
theorem resolve_alike (hs : s.blank = s'.blank) {name : Value} {target : AttributeRef E}
    (h : s.resolve name = .ok (t, target)) :
    ∃ t', s'.resolve name = .ok (t', target) ∧ t.blank = t'.blank := by
  obtain ⟨path, reached, hpath, hreached, htarget, rfl⟩ := resolve_eq_ok_iff.mp h
  rw [← followAll_alike hs] at hreached
  exact ⟨_, resolve_eq_ok_iff.mpr ⟨path, reached, hpath, hreached, htarget, rfl⟩,
    upTo_alike hs reached⟩

theorem equate_alike : StepsAlike AlikeEquation (equate (E := E)) := by
  intro s s' e f hs he t h
  obtain ⟨next, target, r, hresolve, hr, rfl⟩ := equate_eq_ok_iff.mp h
  obtain ⟨next', hresolve', hnext⟩ := resolve_alike hs hresolve
  obtain ⟨r', hr', hblank⟩ := restrictionFor_alike he.2 hr
  rw [he.1] at hresolve'
  exact ⟨_, equate_eq_ok_iff.mpr ⟨next', target, r', hresolve', hr', rfl⟩,
    restrict_alike hnext hblank⟩

theorem bound_alike (name operator : Value) :
    StepsAlike Alike fun (s : Statement E) operand => s.bound name operator operand := by
  intro s s' v w hs hv t h
  obtain ⟨op, next, target, r, hop, hresolve, hr, rfl⟩ := bound_eq_ok_iff.mp h
  obtain ⟨next', hresolve', hnext⟩ := resolve_alike hs hresolve
  obtain ⟨r', hr', hblank⟩ := comparisonFor_alike hv hr
  exact ⟨_, bound_eq_ok_iff.mpr ⟨op, next', target, r', hop, hresolve', hr', rfl⟩,
    restrict_alike hnext hblank⟩

theorem orderBy_alike : StepsAlike (· = ·) (orderBy (E := E)) := by
  rintro s s' clause _ hs rfl t h
  obtain ⟨name, given, next, ref, direction, hclause, hresolve, hdirection, rfl⟩ :=
    orderBy_eq_ok_iff.mp h
  obtain ⟨next', hresolve', hnext⟩ := resolve_alike hs hresolve
  exact ⟨_, orderBy_eq_ok_iff.mpr
      ⟨name, given, next', ref, direction, hclause, hresolve', hdirection, rfl⟩,
    congrArg (fun b : Statement E => { b with order := b.order ++ [(ref, direction)] }) hnext⟩

theorem joinPath_alike : StepsAlike (· = ·) (joinPath (E := E)) := by
  rintro s s' path _ hs rfl t h
  obtain ⟨text, reached, htext, hreached, rfl⟩ := joinPath_eq_ok_iff.mp h
  rw [← followAll_alike hs] at hreached
  exact ⟨_, joinPath_eq_ok_iff.mpr ⟨text, reached, htext, hreached, rfl⟩,
    upTo_alike hs reached⟩

theorem criterionFor_alike (hs : s.blank = s'.blank) {c c' : Criterion} (hc : AlikeCriterion c c')
    {r : Restriction E} (h : s.criterionFor c = .ok r) :
    ∃ r', s'.criterionFor c' = .ok r' ∧ r.blank = r'.blank := by
  have hsame (c : Criterion) : s'.criterionFor c = s.criterionFor c := by
    unfold criterionFor
    rw [start_alike hs]
  rw [hsame]
  cases hc with
  | same => exact ⟨r, h, rfl⟩
  | column name op hv =>
    rw [criterionFor] at h ⊢
    cases hattribute : s.start.attribute? name with
    | none =>
      rw [hattribute] at h
      cases h
    | some target =>
      rw [hattribute] at h
      exact comparisonFor_alike hv h

theorem usesReservedName_alike {equations equations' : List (String × Value)}
    (h : List.Forall₂ AlikeEquation equations equations') :
    usesReservedName equations = usesReservedName equations' := by
  induction h with
  | nil => rfl
  | cons he _ ih =>
    unfold usesReservedName at ih ⊢
    rw [List.any_cons, List.any_cons, he.1, ih]

theorem narrow_alike (hs : s.blank = s'.blank) {criteria criteria' : List Criterion}
    {equations equations' : List (String × Value)}
    (hcriteria : List.Forall₂ AlikeCriterion criteria criteria')
    (hequations : List.Forall₂ AlikeEquation equations equations')
    (h : s.narrow criteria equations = .ok t) :
    ∃ t', s'.narrow criteria' equations' = .ok t' ∧ t.blank = t'.blank := by
  obtain ⟨hreserved, restrictions, hrestrictions, hrun⟩ := narrow_eq_ok_iff.mp h
  have hreserved' : usesReservedName equations' = false := by
    rw [← usesReservedName_alike hequations]
    exact hreserved
  have hcriterion : ∀ c c' r, AlikeCriterion c c' → s.criterionFor c = .ok r →
      ∃ r', s'.criterionFor c' = .ok r' ∧ r.blank = r'.blank := by
    intro c c' r hc h
    exact criterionFor_alike hs hc h
  obtain ⟨restrictions', hrestrictions', hblank⟩ := mapM_alike hcriterion hcriteria hrestrictions
  have hstart : (restrictions.foldl restrict s).blank = (restrictions'.foldl restrict s').blank :=
    foldl_restrict_alike hs hblank
  obtain ⟨t', hrun', ht⟩ := equate_alike.foldlM hstart hequations hrun
  exact ⟨t', narrow_eq_ok_iff.mpr ⟨hreserved', restrictions', hrestrictions', hrun'⟩, ht⟩

/-- **One call** keeps two statements the same but for the values that they bind. -/
theorem perform_alike : StepsAlike AlikeCall (Statement.perform (E := E)) := by
  intro s s' call call' hs hcall t h
  cases hcall with
  | restrict hcriteria hequations => exact narrow_alike hs hcriteria hequations h
  | compare name operator hv => exact bound_alike name operator hs hv h
  | limit m n =>
    cases h
    exact ⟨_, rfl, congrArg (fun b : Statement E => { b with limit := some 0 }) hs⟩
  | offset m n =>
    cases h
    exact ⟨_, rfl, congrArg (fun b : Statement E => { b with offset := some 0 }) hs⟩
  | same =>
    cases call with
    | restrict criteria equations =>
      exact narrow_alike hs (List.forall₂_same.mpr fun c _ => .same c)
        (List.forall₂_same.mpr fun e _ => ⟨rfl, .refl e.2⟩) h
    | compare name operator operand => exact bound_alike name operator hs (.refl operand) h
    | orderBy clauses => exact orderBy_alike.foldlM_self clauses hs h
    | reorder clauses =>
      exact orderBy_alike.foldlM_self clauses
        (congrArg (fun b : Statement E => { b with order := [] }) hs) h
    | leftJoin paths => exact joinPath_alike.foldlM_self paths hs h
    | includeRelated specs =>
      obtain ⟨loads, hloads, h⟩ := Sorting.eq_ok_of_bind h
      cases h
      have hroot : s.root = s'.root := congrArg (·.root) hs
      rw [hroot] at hloads
      exact ⟨_, bind_eq_ok hloads rfl,
        congrArg (fun b : Statement E => { b with loads := b.loads ++ loads }) hs⟩
    | limit count =>
      obtain ⟨limit, hlimit, h⟩ := Sorting.eq_ok_of_bind h
      cases h
      exact ⟨_, bind_eq_ok hlimit rfl,
        congrArg (fun b : Statement E => { b with limit := limit.map fun _ => 0 }) hs⟩
    | offset count =>
      obtain ⟨offset, hoffset, h⟩ := Sorting.eq_ok_of_bind h
      cases h
      exact ⟨_, bind_eq_ok hoffset rfl,
        congrArg (fun b : Statement E => { b with offset := offset.map fun _ => 0 }) hs⟩

/-- **The text of a sequence of calls** shows no value that is bound. Calls that differ from others
in compared numbers and texts, or in the integers of the window, succeed where these do and lead to
the same text. Both bind the values that their own calls compare with, in the order of the calls,
and then the window, unless a call excludes every row: then the window alone. -/
theorem text_of_alike_calls {db : Database E} {root : E} {calls calls' : List Call}
    {q : TableQuery E} (halike : List.Forall₂ AlikeCall calls calls')
    (h : calls.foldlM (fun q call => TableQuery.perform call q) (TableQuery.all db root) = .ok q) :
    ∃ q' : TableQuery E,
      calls'.foldlM (fun q call => TableQuery.perform call q) (TableQuery.all db root) = .ok q' ∧
      q'.statement.text = q.statement.text ∧
      q.statement.parameters = parametersOf calls ∧
      q'.statement.parameters = parametersOf calls' := by
  have hrun := statement_of_calls h
  obtain ⟨s', hrun', hblank⟩ := perform_alike.foldlM rfl halike hrun
  refine ⟨⟨db, s'⟩, calls_of_statement db hrun', ?_, parameters_of_calls hrun,
    parameters_of_calls hrun'⟩
  rw [← text_blank s', ← hblank, text_blank]

end

/-- Calls that compare with a name, a list and two ages. -/
def plainCalls : List Call :=
  [.limit (.int 2),
    .restrict [.column "age" .ge (.int 18)]
      [("mentor.first_name", .str "Jane"), ("id", .list [.int 1, .null, .int 3])],
    .orderBy [.tuple [.str "address.city", .str "desc"]],
    .compare (.str "mentor.age") (.str "lt") (.int 65)]

/-- The same calls with values that look like parts of a statement. -/
def craftedCalls : List Call :=
  [.limit (.int (-1)),
    .restrict [.column "age" .ge (.str "? OR 1 = 1")]
      [("mentor.first_name", .str "?; SELECT 1"), ("id", .list [.str "2)", .null, .str "*"])],
    .orderBy [.tuple [.str "address.city", .str "desc"]],
    .compare (.str "mentor.age") (.str "lt") (.str "NULL")]

theorem alike_craftedCalls : List.Forall₂ AlikeCall plainCalls craftedCalls := by
  have hitem {v w : Value} (hv : isScalar v = true) (hw : isScalar w = true) : AlikeItem v w :=
    Or.inr ⟨hv, hw⟩
  refine .cons (.limit _ _) (.cons (.restrict ?_ ?_) (.cons (.same _) (.cons (.compare _ _ ?_)
    .nil)))
  · exact .cons (.column _ _ (.item (hitem rfl rfl))) .nil
  · refine .cons ⟨rfl, .item (hitem rfl rfl)⟩ (.cons ⟨rfl, .list ?_⟩ .nil)
    exact .cons (hitem rfl rfl) (.cons (Or.inl rfl) (.cons (hitem rfl rfl) .nil))
  · exact .item (hitem rfl rfl)

theorem text_of_craftedCalls :
    ∃ q q' : TableQuery Entity,
      plainCalls.foldlM (fun q call => TableQuery.perform call q)
        (TableQuery.all Entity.sample .user) = .ok q ∧
      craftedCalls.foldlM (fun q call => TableQuery.perform call q)
        (TableQuery.all Entity.sample .user) = .ok q' ∧
      q'.statement.text = q.statement.text ∧
      q.statement.parameters = [.int 18, .str "Jane", .int 1, .null, .int 3, .int 65, .int 2,
        .int 0] ∧
      q'.statement.parameters = [.str "? OR 1 = 1", .str "?; SELECT 1", .str "2)", .null, .str "*",
        .str "NULL", .int (-1), .int 0] := by
  have hruns : ∃ q : TableQuery Entity, plainCalls.foldlM (fun q call => TableQuery.perform call q)
      (TableQuery.all Entity.sample .user) = .ok q := ⟨_, rfl⟩
  obtain ⟨q, hrun⟩ := hruns
  obtain ⟨q', hrun', htext, hparameters, hparameters'⟩ :=
    text_of_alike_calls alike_craftedCalls hrun
  exact ⟨q, q', hrun, hrun', htext, hparameters, hparameters'⟩

/-- Calls of which the first excludes every row. -/
def excludingCalls : List Call :=
  [.restrict [.given (.bool false)] [], .restrict [] [("last_name", .str "Doe")]]

/-- A value that is compared with after a call excludes every row is not bound. -/
theorem parameters_of_excludingCalls :
    ∃ q : TableQuery Entity,
      excludingCalls.foldlM (fun q call => TableQuery.perform call q)
        (TableQuery.all Entity.sample .user) = .ok q ∧
      excludingCalls.flatMap compared = [.str "Doe"] ∧ q.statement.parameters = [] ∧
      q.statement.parameters ≠ excludingCalls.flatMap compared ++ q.statement.windowParameters :=
  ⟨_, rfl, rfl, rfl, fun h => List.cons_ne_nil _ _ h.symm⟩

end ResourceQuery.Sql
