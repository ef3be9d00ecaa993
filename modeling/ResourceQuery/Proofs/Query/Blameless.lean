import ResourceQuery.Proofs.Query.Stages

/-!
# Failures that blame no declaration

Errors of configuration are for those who declare rules and settings. A computation is blameless if
it never fails with one, whatever else it may fail with. Parts that are blameless make a whole that
is, so it is enough to look at each part once.

Headlines:
* **`QueryError.isConfiguration`**: the errors of configuration.
* **`Blameless`**: no such failure, and what holds of a result.
* **`Blameless.bind`**, **`Blameless.andThen`**, **`Blameless.foldlM`**, **`Blameless.run`**:
  sequences.
* **`blameless_param`**, **`blameless_readAll`**, **`blameless_ensurePermitted`**,
  **`blameless_filterEntries`**: what is read of a request.
* **`blameless_given`**: a value in place of a collection answers no call.
-/

namespace ResourceQuery

open Pagination

namespace QueryError

/-- Is an error of the kind of configuration errors, or of a kind below it? -/
def isConfiguration (e : QueryError) : Bool :=
  e.kind?.any fun kind => kind.ancestors.contains .configuration

@[simp] theorem isConfiguration_lackOf (method : String) (v : Value) :
    (lackOf method v).isConfiguration = false := by
  unfold lackOf
  split
  · split <;> rfl
  · rfl

end QueryError

/-- A computation that does not fail with an error of configuration, and whose result satisfies
`P`. -/
inductive Blameless {α : Type} (P : α → Prop) : Except QueryError α → Prop
  | ok {a : α} (h : P a) : Blameless P (.ok a)
  | error {e : QueryError} (h : e.isConfiguration = false) : Blameless P (.error e)

namespace Blameless

variable {α β σ : Type} {P : α → Prop} {Q : β → Prop}

theorem of_ok {x : Except QueryError α} {a : α} (h : Blameless P x) (ha : x = .ok a) : P a := by
  subst ha
  cases h
  assumption

theorem of_error {x : Except QueryError α} {e : QueryError} (h : Blameless P x)
    (he : x = .error e) : e.isConfiguration = false := by
  subst he
  cases h
  assumption

/-- What a result is may be kept in mind. -/
theorem with_eq {x : Except QueryError α} (h : Blameless P x) :
    Blameless (fun a => P a ∧ x = .ok a) x := by
  cases h with
  | ok h => exact .ok ⟨h, rfl⟩
  | error h => exact .error h

theorem map {f : α → β} {x : Except QueryError α} (h : Blameless P x)
    (hf : ∀ a, P a → Q (f a)) : Blameless Q (x.map f) := by
  cases h with
  | ok h => exact .ok (hf _ h)
  | error h => exact .error h

/-- Blameless parts make a blameless whole. -/
theorem bind {x : Except QueryError α} {f : α → Except QueryError β} (hx : Blameless P x)
    (hf : ∀ a, P a → Blameless Q (f a)) : Blameless Q (x >>= f) := by
  cases hx with
  | ok h => exact hf _ h
  | error h => exact .error h

/-- So they do where something happens on the way. -/
theorem andThen {x : Traced α} {f : α → Traced β} (hx : Blameless P x.result)
    (hf : ∀ a, P a → Blameless Q (f a).result) : Blameless Q (x >>= f).result := by
  rw [Traced.result_bind]
  exact hx.bind hf

/-- A check on the way, at which nothing happens. -/
theorem check {r : Except QueryError α} {f : α → Traced β} (hr : Blameless P r)
    (hf : ∀ a, P a → Blameless Q (f a).result) : Blameless Q (Traced.ofExcept r >>= f).result := by
  rw [Traced.result_bind, Traced.result_ofExcept]
  exact hr.bind hf

/-- Steps that keep a property one after the other. -/
theorem foldlM {I : σ → Prop} {step : σ → α → Except QueryError σ} {xs : List α} :
    (∀ x ∈ xs, ∀ s, I s → Blameless I (step s x)) →
      ∀ {s}, I s → Blameless I (xs.foldlM step s) := by
  induction xs with
  | nil => exact fun _ s hs => .ok hs
  | cons x rest ih =>
    intro hstep s hs
    rw [List.forall_mem_cons] at hstep
    rw [List.foldlM_cons]
    exact (hstep.1 s hs).bind fun next hnext => ih hstep.2 hnext

/-- The same for steps on the way to which something happens. -/
theorem run {I : σ → Prop} {step : σ → α → Traced σ} {xs : List α} :
    (∀ x ∈ xs, ∀ s, I s → Blameless I (step s x).result) →
      ∀ {s}, I s → Blameless I (xs.foldlM step s).result := by
  induction xs with
  | nil => exact fun _ s hs => .ok hs
  | cons x rest ih =>
    intro hstep s hs
    rw [List.forall_mem_cons] at hstep
    rw [List.foldlM_cons]
    exact (hstep.1 s hs).andThen fun next hnext => ih hstep.2 hnext

theorem mapM {f : α → Except QueryError β} (hf : ∀ a, Blameless Q (f a)) (xs : List α) :
    Blameless (fun _ => True) (xs.mapM f) := by
  induction xs with
  | nil => exact .ok trivial
  | cons x rest ih =>
    rw [List.mapM_cons]
    exact (hf x).bind fun _ _ => ih.bind fun _ _ => .ok trivial

end Blameless

/-! ## Requests -/

theorem blameless_textFor (method : String) (v : Value) :
    Blameless (fun text => v.spelling? = some text) (v.textFor method) := by
  unfold Value.textFor
  split
  · next htext => exact .ok htext
  · exact .error (QueryError.isConfiguration_lackOf method v)

theorem blameless_entriesFor (method : String) (v : Value) :
    Blameless (fun _ => True) (v.entriesFor method) := by
  unfold Value.entriesFor
  split
  · exact .ok trivial
  · exact .error (QueryError.isConfiguration_lackOf method v)

theorem blameless_filterEntries (given : Value) :
    Blameless (fun _ => True) (filterEntries given) := by
  unfold filterEntries
  split
  · exact blameless_entriesFor _ _
  · exact .ok trivial

theorem blameless_tokenList (raw : Value) : Blameless (fun _ => True) (Request.tokenList raw) := by
  unfold Request.tokenList
  split
  · exact .ok trivial
  · exact (blameless_textFor "split" raw).map fun _ _ => trivial

theorem blameless_readAll (raw : Value) : Blameless (fun _ => True) (SortParam.readAll raw) :=
  (blameless_tokenList raw).map fun _ _ => trivial

/-- Sorts that are not permitted are reported as such. -/
theorem blameless_ensurePermitted {C : Type} (rules : QueryRules C) (params : List SortParam) :
    Blameless (fun _ => ∀ p ∈ params, rules.isSortPermitted p.name = true)
      (rules.ensurePermitted params) := by
  unfold QueryRules.ensurePermitted
  split
  · next hnone => exact .ok (QueryRules.unpermitted_eq_nil_iff.mp hnone)
  · exact .error rfl

/-- A parameter of a request that is no map is refused as what it is. -/
theorem blameless_param {C : Type} (q : Query C) (name : String) :
    Blameless (fun _ => True) (q.param name) := by
  unfold Query.param
  split
  · exact (blameless_entriesFor "get" q.params).map fun _ _ => trivial
  · exact .ok trivial

/-! ## Values in place of collections -/

theorem isConfiguration_refusal (method : String) (v : Value) :
    (Selection.refusal method v).isConfiguration = false := by
  unfold Selection.refusal
  split
  · rfl
  · rfl
  · rfl
  · rfl
  · rfl
  · exact QueryError.isConfiguration_lackOf _ _

/-- **A value answers no call**, and is not blamed on a declaration. -/
theorem blameless_given {C : Type} [Collection C] {P : Selection C → Prop} (call : Call)
    (v : Value) : Blameless P (Collection.perform call (Selection.given v : Selection C)).result :=
  .error (isConfiguration_refusal _ v)

end ResourceQuery
