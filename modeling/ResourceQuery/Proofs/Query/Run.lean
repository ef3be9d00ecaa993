import ResourceQuery.Collection.Memory
import ResourceQuery.Query.Session

/-!
# Running computations

The laws by which the result of a longer computation is read off those of its parts: a sequence
has a result exactly if its parts have one after the other, and a call on a collection in memory
gives the collection that the call describes.

Headlines:
* **`Traced.result_bind`**, **`Traced.result_bind_eq_ok_iff`**: the result of a sequence.
* **`Session.result_bind_eq_ok_iff`**: the same where details are remembered.
* **`Query.result_runStage`**, **`Query.result_paginate`**: one stage of a query.
* **`Selection.result_perform_live`**: a call on a collection that is not replaced by a value.
* **`Memory.perform_orderByClauses`**, **`perform_reorderClauses`**: order clauses are always
  accepted.
-/

namespace ResourceQuery

namespace Traced

variable {α β : Type}

@[simp] theorem result_ofExcept (r : Except QueryError α) : (ofExcept r).result = r := rfl

@[simp] theorem result_fail (e : QueryError) : (fail e : Traced α).result = .error e := rfl

@[simp] theorem result_log (event : LogEvent) : (log event).result = .ok () := rfl

theorem result_bind (x : Traced α) (f : α → Traced β) :
    (x >>= f).result = x.result >>= fun a => (f a).result := by
  cases h : x.result with
  | ok a => rw [bind_of_ok h]; rfl
  | error e => rw [bind_of_error h]; rfl

/-- The rest of a sequence whose first part has a result. -/
theorem result_bind_of_ok {x : Traced α} {a : α} (h : x.result = .ok a) (f : α → Traced β) :
    (x >>= f).result = (f a).result := by
  rw [bind_of_ok h]

/-- A sequence whose first part fails. -/
theorem result_bind_of_error {x : Traced α} {e : QueryError} (h : x.result = .error e)
    (f : α → Traced β) : (x >>= f).result = .error e := by
  rw [bind_of_error h]

/-- **A sequence has a result** exactly if its parts have one after the other. -/
theorem result_bind_eq_ok_iff {x : Traced α} {f : α → Traced β} {b : β} :
    (x >>= f).result = .ok b ↔ ∃ a, x.result = .ok a ∧ (f a).result = .ok b := by
  rw [result_bind]
  cases h : x.result with
  | error e =>
    refine ⟨fun hok => ?_, fun ⟨_, hok, _⟩ => ?_⟩
    · cases hok
    · cases hok
  | ok a =>
    refine ⟨fun hok => ⟨a, rfl, hok⟩, ?_⟩
    rintro ⟨_, hok, hf⟩
    cases hok
    exact hf

end Traced

namespace Session

variable {α β : Type}

@[simp] theorem run_ofTraced (t : Traced α) (before : Option Pagination.Details) :
    ofTraced t before = (t, before) := rfl

@[simp] theorem run_pure (a : α) (before : Option Pagination.Details) :
    (pure a : Session α) before = (pure a, before) := rfl

/-- The result of a sequence, from whatever is remembered. -/
theorem result_bind_eq_ok_iff {x : Session α} {f : α → Session β} {b : β}
    {before : Option Pagination.Details} :
    ((x >>= f) before).1.result = .ok b ↔
      ∃ a, (x before).1.result = .ok a ∧ (f a (x before).2).1.result = .ok b := by
  cases h : (x before).1.result with
  | error e =>
    rw [run_bind_of_error h]
    refine ⟨fun hok => ?_, fun ⟨_, hok, _⟩ => ?_⟩
    · cases hok
    · cases hok
  | ok a =>
    rw [run_bind_of_ok h]
    refine ⟨fun hok => ⟨a, rfl, hok⟩, ?_⟩
    rintro ⟨_, hok, hf⟩
    cases hok
    exact hf

theorem result_bind_pure (x : Session α) (before : Option Pagination.Details) :
    ((x >>= pure) before).1.result = (x before).1.result := by
  cases h : (x before).1.result with
  | error e => rw [run_bind_of_error h]
  | ok a =>
    rw [run_bind_of_ok h]
    rfl

end Session

/-! ## Stages -/

namespace Query

variable {C : Type} [Collection C] (q : Query C)

/-- A stage comes to what it does; that it runs is only logged. -/
theorem result_runStage (c : Selection C) (stage : Stage) (before : Option Pagination.Details) :
    (q.runStage c stage before).1.result = (q.stage stage .null c before).1.result := by
  unfold runStage
  rw [Session.run_bind_of_ok (a := ()) rfl]
  rfl

/-- The page stage comes to the records of its page. -/
theorem result_paginate (given : Value) (c : Selection C) (before : Option Pagination.Details) :
    (q.paginate given c before).1.result = (q.page given c).result.map Prod.fst := by
  have hfirst : (Session.ofTraced (q.page given c) before).1.result = (q.page given c).result := rfl
  unfold paginate
  cases hpage : (q.page given c).result with
  | error e => rw [Session.run_bind_of_error (hfirst.trans hpage), Except.map]
  | ok page =>
    rw [Session.run_bind_of_ok (hfirst.trans hpage)]
    rfl

end Query

/-! ## Calls on collections in memory -/

namespace Selection

/-- A call on a collection in memory that accepts it. -/
theorem result_perform_live {m m' : Memory} {call : Call} (h : m.perform call = .ok m') :
    (Collection.perform call (Selection.live m)).result = .ok (.live m') := by
  show (Traced.ofExcept (m.perform call) >>= fun c => pure (Selection.live c)).result = _
  rw [Traced.result_bind, Traced.result_ofExcept, h]
  rfl

/-- What accepted a call on a collection in memory. -/
theorem exists_of_result_perform_live {m : Memory} {call : Call} {s : Selection Memory}
    (h : (Collection.perform call (Selection.live m)).result = .ok s) :
    ∃ m', m.perform call = .ok m' ∧ s = .live m' := by
  obtain ⟨m', hm, hs⟩ := Traced.result_bind_eq_ok_iff.mp h
  cases hs
  exact ⟨m', hm, rfl⟩

/-- The number of records of a collection in memory. -/
theorem result_count_live {m : Memory} {matching : List Value} (h : m.matching = .ok matching) :
    (Collection.count (Selection.live m)).result = .ok matching.length := by
  show m.size = _
  rw [Memory.size, h]
  rfl

end Selection

namespace Memory

/-- The clauses as the ordering of a collection holds them. -/
def clausesOf (clauses : List OrderClause) : List (Value × Direction) :=
  clauses.map fun c => (.str c.name, c.direction)

theorem mapM_readClause (clauses : List OrderClause) :
    (clauses.map (·.toValue)).mapM readClause = .ok (clausesOf clauses) := by
  induction clauses with
  | nil => rfl
  | cons c cs ih =>
    rw [List.map_cons, List.mapM_cons, readClause_toValue, ih]
    rfl

theorem perform_orderByClauses (m : Memory) (clauses : List OrderClause) :
    m.perform (.orderByClauses clauses) =
      .ok { m with ordering := m.ordering ++ clausesOf clauses } := by
  show (do return { m with ordering := m.ordering ++ (← _) } : Except QueryError Memory) = _
  rw [mapM_readClause]
  rfl

theorem perform_reorderClauses (m : Memory) (clauses : List OrderClause) :
    m.perform (.reorderClauses clauses) = .ok { m with ordering := clausesOf clauses } := by
  show (do return { m with ordering := ← _ } : Except QueryError Memory) = _
  rw [mapM_readClause]
  rfl

/-- A collection accepts criteria and equations unless one of these uses the reserved name. -/
theorem restrict_eq_ok_iff {criteria : List Criterion} {equations : List (String × Value)}
    {m m' : Memory} :
    m.restrict criteria equations = .ok m' ↔ usesReservedName equations = false ∧
      m' = { m with predicates := m.predicates ++ predicatesOf criteria equations } := by
  unfold restrict
  cases usesReservedName equations with
  | true =>
    refine ⟨fun h => ?_, fun h => ?_⟩
    · cases h
    · cases h.1
  | false =>
    refine ⟨fun h => ?_, fun h => ?_⟩
    · cases h
      exact ⟨rfl, rfl⟩
    · rw [h.2]
      rfl

end Memory

end ResourceQuery
