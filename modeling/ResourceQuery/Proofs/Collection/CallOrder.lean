import ResourceQuery.Proofs.Collection.KeyOrder
import ResourceQuery.Proofs.Collection.Matching
import ResourceQuery.Proofs.Collection.Window
import ResourceQuery.Proofs.Query.Run

/-!
# The order of calls

Calls on a collection in memory only take down what is asked for, so that running it sees a normal
form: the predicates, joins and loads of all calls one after the other, the order of the last call
that starts a new one and of those after it, and the last limit and offset. The calls of one kind
therefore keep their order among themselves, and it does not matter how they stand among the others.

Headlines:
* **`Call.accepted`**, **`Call.update`**: which calls a collection accepts, and what they do to it.
* **`foldlM_perform_eq_ok_iff`**: a run of calls is the run of their updates.
* **`Call.update_comm`**: updates of different kinds commute.
* **`field_of_appending`**, **`field_of_overwriting`**, **`ordering_of_updates`**: the three ways in
  which a run gathers what its calls say.
* **`rows_of_bounds`**: a window of bounds that may be missing.
* **`Memory.DescribedBy`**: what a run of calls describes; **`results_of_calls`**: that it does.
-/

namespace ResourceQuery

open Sorting (eq_ok_of_bind)

/-! ## What a call says -/

namespace Call

/-- The parts of a collection that calls are about. -/
inductive Kind where
  | narrowing | ordering | joins | includes | limit | offset
deriving Repr, DecidableEq

/-- The part that a call is about. -/
def kind : Call → Kind
  | .restrict .. | .compare .. => .narrowing
  | .orderBy _ | .reorder _ => .ordering
  | .leftJoin _ => .joins
  | .includeRelated _ => .includes
  | .limit _ => .limit
  | .offset _ => .offset

/-- Does a collection in memory accept the call? Equations may not use the reserved name, bounds
have to be named, and clauses have to be readable. -/
def accepted : Call → Bool
  | .restrict _ equations => !usesReservedName equations
  | .compare _ operator _ => (Side.read? operator).isSome
  | .orderBy clauses | .reorder clauses => clauses.all fun clause => (readClause clause).isOk
  | _ => true

/-- The predicates that a call adds. -/
def predicates : Call → List Predicate
  | .restrict criteria equations => Memory.predicatesOf criteria equations
  | .compare name operator bound =>
    ((Side.read? operator).map fun side => .beyond name side bound).toList
  | _ => []

/-- The order clauses that a call adds. -/
def clauses : Call → List (Value × Direction)
  | .orderBy clauses | .reorder clauses => clauses.filterMap fun v => (readClause v).toOption
  | _ => []

/-- Does the call start a new order? -/
def startsOrder : Call → Bool
  | .reorder _ => true
  | _ => false

/-- The relationships that a call joins. -/
def joined : Call → List Value
  | .leftJoin paths => paths
  | _ => []

/-- What a call loads along. -/
def included : Call → List Value
  | .includeRelated specs => specs
  | _ => []

/-- The limit that a call sets. -/
def limit? : Call → Option Value
  | .limit count => some count
  | _ => none

/-- The offset that a call sets. -/
def offset? : Call → Option Value
  | .offset count => some count
  | _ => none

/-- What an accepted call does to a collection. -/
def update : Call → Memory → Memory
  | .restrict criteria equations, m =>
    { m with predicates := m.predicates ++ predicates (.restrict criteria equations) }
  | .compare name operator bound, m =>
    { m with predicates := m.predicates ++ predicates (.compare name operator bound) }
  | .orderBy given, m => { m with ordering := m.ordering ++ clauses (.orderBy given) }
  | .reorder given, m => { m with ordering := clauses (.reorder given) }
  | .leftJoin paths, m => { m with joins := m.joins ++ paths }
  | .includeRelated specs, m => { m with includes := m.includes ++ specs }
  | .limit count, m => { m with limit := count }
  | .offset count, m => { m with offset := count }

/-- **Updates of different kinds** commute. -/
theorem update_comm {a b : Call} (h : a.kind ≠ b.kind) (m : Memory) :
    b.update (a.update m) = a.update (b.update m) := by
  cases a <;> cases b <;> first | rfl | exact absurd rfl h

end Call

/-! ## One call -/

theorem mapM_readClause_eq_ok_iff {given : List Value} {read : List (Value × Direction)} :
    given.mapM readClause = .ok read ↔
      (given.all fun v => (readClause v).isOk) = true ∧
        read = given.filterMap fun v => (readClause v).toOption := by
  induction given generalizing read with
  | nil =>
    constructor
    · rintro ⟨⟩
      exact ⟨rfl, rfl⟩
    · rintro ⟨-, rfl⟩
      rfl
  | cons v rest ih =>
    rw [List.mapM_cons, List.all_cons, List.filterMap_cons, Bool.and_eq_true]
    cases hv : readClause v with
    | error e => exact ⟨fun h => (by cases h), fun h => (by cases h.1.1)⟩
    | ok clause =>
      constructor
      · intro h
        obtain ⟨_, ⟨⟩, h⟩ := eq_ok_of_bind h
        obtain ⟨others, hothers, h⟩ := eq_ok_of_bind h
        cases h
        obtain ⟨hall, rfl⟩ := ih.mp hothers
        exact ⟨⟨rfl, hall⟩, rfl⟩
      · rintro ⟨⟨-, hall⟩, rfl⟩
        show (rest.mapM readClause >>= fun others => pure (clause :: others)) = _
        rw [ih.mpr ⟨hall, rfl⟩]
        rfl

/-- **A call succeeds** exactly if it is accepted, and does nothing but its update. -/
theorem perform_eq_ok_iff {call : Call} {m m' : Memory} :
    Memory.perform call m = .ok m' ↔ call.accepted = true ∧ m' = call.update m := by
  cases call with
  | restrict criteria equations =>
    rw [Memory.perform, Memory.restrict_eq_ok_iff, Call.accepted, Bool.not_eq_true']
    rfl
  | compare name operator bound =>
    rw [Memory.perform, Call.accepted, Call.update, Call.predicates]
    cases Side.read? operator with
    | none => simp
    | some side => simp [eq_comm]
  | orderBy given =>
    constructor
    · intro h
      obtain ⟨read, hread, h⟩ := eq_ok_of_bind h
      cases h
      obtain ⟨hall, rfl⟩ := mapM_readClause_eq_ok_iff.mp hread
      exact ⟨hall, rfl⟩
    · rintro ⟨hall, rfl⟩
      rw [Memory.perform, mapM_readClause_eq_ok_iff.mpr ⟨hall, rfl⟩]
      rfl
  | reorder given =>
    constructor
    · intro h
      obtain ⟨read, hread, h⟩ := eq_ok_of_bind h
      cases h
      obtain ⟨hall, rfl⟩ := mapM_readClause_eq_ok_iff.mp hread
      exact ⟨hall, rfl⟩
    · rintro ⟨hall, rfl⟩
      rw [Memory.perform, mapM_readClause_eq_ok_iff.mpr ⟨hall, rfl⟩]
      rfl
  | leftJoin paths => simp [Memory.perform, Call.accepted, Call.update, eq_comm]
  | includeRelated specs => simp [Memory.perform, Call.accepted, Call.update, eq_comm]
  | limit count => simp [Memory.perform, Call.accepted, Call.update, eq_comm]
  | offset count => simp [Memory.perform, Call.accepted, Call.update, eq_comm]

/-- The collection that calls describe one after the other, if they are accepted. -/
def Memory.updateAll (calls : List Call) (m : Memory) : Memory :=
  calls.foldl (fun m call => call.update m) m

/-- A run of calls succeeds exactly if all of them are accepted, and is the run of their
updates. -/
theorem foldlM_perform_eq_ok_iff {calls : List Call} {m m' : Memory} :
    calls.foldlM (fun m call => Memory.perform call m) m = .ok m' ↔
      (∀ call ∈ calls, call.accepted = true) ∧ m' = m.updateAll calls := by
  induction calls generalizing m with
  | nil =>
    constructor
    · rintro ⟨⟩
      exact ⟨nofun, rfl⟩
    · rintro ⟨-, rfl⟩
      rfl
  | cons call rest ih =>
    rw [List.foldlM_cons, List.forall_mem_cons]
    constructor
    · intro h
      obtain ⟨next, hnext, hrest⟩ := eq_ok_of_bind h
      obtain ⟨hcall, rfl⟩ := perform_eq_ok_iff.mp hnext
      obtain ⟨hall, rfl⟩ := ih.mp hrest
      exact ⟨⟨hcall, hall⟩, rfl⟩
    · rintro ⟨⟨hcall, hall⟩, rfl⟩
      rw [perform_eq_ok_iff.mpr ⟨hcall, rfl⟩]
      exact ih.mpr ⟨hall, rfl⟩

/-- Two calls of different kinds that follow each other may change places. -/
theorem Memory.updateAll_swap {a b : Call} (h : a.kind ≠ b.kind) (before after : List Call)
    (m : Memory) :
    m.updateAll (before ++ b :: a :: after) = m.updateAll (before ++ a :: b :: after) := by
  simp only [updateAll, List.foldl_append, List.foldl_cons, Call.update_comm h]

/-! ## What a run gathers -/

section

variable {α : Type} {calls : List Call}

/-- A part to which each call appends something. -/
theorem field_of_appending {part : Memory → List α} {said : Call → List α}
    (h : ∀ call m, part (call.update m) = part m ++ said call) (m : Memory) :
    part (m.updateAll calls) = part m ++ calls.flatMap said := by
  induction calls generalizing m with
  | nil => exact (List.append_nil _).symm
  | cons call rest ih =>
    rw [List.flatMap_cons, ← List.append_assoc, ← h call m]
    exact ih (call.update m)

/-- A part that a call may overwrite. -/
theorem field_of_overwriting {part : Memory → α} {said : Call → Option α}
    (h : ∀ call m, part (call.update m) = (said call).getD (part m)) (m : Memory) :
    part (m.updateAll calls) = (calls.filterMap said).getLast?.getD (part m) := by
  induction calls generalizing m with
  | nil => rfl
  | cons call rest ih =>
    have hrest : part (m.updateAll (call :: rest)) = part ((call.update m).updateAll rest) := rfl
    rw [hrest, ih, h, List.filterMap_cons]
    cases said call with
    | none => rfl
    | some v =>
      rw [List.getLast?_cons]
      cases (rest.filterMap said).getLast? <;> rfl

/-- The calls from the last one on that starts a new order, or all of them. -/
def sinceOrder : List Call → List Call
  | [] => []
  | call :: rest => if rest.any Call.startsOrder then sinceOrder rest else call :: rest

theorem sinceOrder_of_none (h : calls.any Call.startsOrder = false) : sinceOrder calls = calls := by
  cases calls with
  | nil => rfl
  | cons call rest =>
    rw [List.any_cons, Bool.or_eq_false_iff] at h
    rw [sinceOrder, if_neg (by simp [h.2])]

/-- The order is started anew, or goes on. -/
theorem ordering_of_updates (m : Memory) :
    (m.updateAll calls).ordering =
      (if calls.any Call.startsOrder then [] else m.ordering) ++
        (sinceOrder calls).flatMap Call.clauses := by
  induction calls generalizing m with
  | nil => exact (List.append_nil _).symm
  | cons call rest ih =>
    have hcall : (call.update m).ordering =
        (if call.startsOrder then [] else m.ordering) ++ call.clauses := by
      cases call <;> first | rfl | exact (List.append_nil _).symm
    have hrest : (m.updateAll (call :: rest)).ordering =
        ((call.update m).updateAll rest).ordering := rfl
    rw [hrest, ih, hcall, List.any_cons, sinceOrder]
    by_cases h : rest.any Call.startsOrder = true
    · simp [h]
    · rw [sinceOrder_of_none (by simpa using h)]
      simp [h]

end

/-! ## Windows whose bounds may be missing -/

/-- A bound of a window: nothing, or a whole number that is not negative. -/
def IsBound (v : Value) : Prop := v = .null ∨ ∃ count, v.wholeNumber? = some count ∧ 0 ≤ count

/-- The number of a bound, if it is one. -/
def boundOf (v : Value) : Option Nat := v.wholeNumber?.map Int.toNat

/-- Keep at most so many items, or all of them. -/
def cut {α : Type} (count : Option Nat) (items : List α) : List α :=
  match count with
  | none => items
  | some n => items.take n

/-- A window skips and keeps so many of the sorted records, as far as it has bounds. -/
theorem Memory.rows_of_bounds {m : Memory} (hlimit : IsBound m.limit) (hoffset : IsBound m.offset) :
    m.rows = m.sorted.map fun sorted =>
      cut (boundOf m.limit) (sorted.drop ((boundOf m.offset).getD 0)) := by
  obtain ⟨start, hstart, hstart₀, hskipped⟩ : ∃ start, m.start = .ok start ∧ 0 ≤ start ∧
      (boundOf m.offset).getD 0 = start.toNat := by
    rcases hoffset with hnull | ⟨start, hwhole, hstart₀⟩
    · refine ⟨0, ?_, Int.le_refl 0, ?_⟩
      · rw [start, hnull]
        rfl
      · rw [hnull]
        rfl
    · exact ⟨start, start_of_wholeNumber? hwhole, hstart₀, by rw [boundOf, hwhole]; rfl⟩
  rw [hskipped]
  rcases hlimit with hnull | ⟨count, hwhole, hcount₀⟩
  · rw [rows_of_start hstart hnull hstart₀, hnull]
    rfl
  · rw [rows_of_window hstart hwhole hstart₀ hcount₀, boundOf, hwhole]
    rfl

/-! ## What calls describe -/

section

variable (items : List Value) (calls : List Call)

/-- The predicates of all calls. -/
def addedPredicates : List Predicate := calls.flatMap Call.predicates

/-- The clauses of the last call that starts a new order and of those after it. -/
def finalOrder : List (Value × Direction) := (sinceOrder calls).flatMap Call.clauses

/-- The last limit, if there is one. -/
def lastLimit : Value := (calls.filterMap Call.limit?).getLast?.getD .null

/-- The last offset, if there is one. -/
def lastOffset : Value := (calls.filterMap Call.offset?).getLast?.getD .null

/-- The window of the last limit and the last offset. -/
def finalWindow (sorted : List Value) : List Value :=
  cut (boundOf (lastLimit calls)) (sorted.drop ((boundOf (lastOffset calls)).getD 0))

/-- The items that satisfy the predicates of all calls, if none of these fails. -/
def selected : Except QueryError (List Value) :=
  items.filterM fun item => Predicate.allHold item (addedPredicates calls)

/-- What a collection over `items` gives after `calls`: their order, joins and loads, the number of
items that satisfy their predicates, and of these items in their final order the ones in the
window. -/
structure Memory.DescribedBy (m : Memory) : Prop where
  ordering : m.ordering = finalOrder calls
  joins : m.joins = calls.flatMap Call.joined
  includes : m.includes = calls.flatMap Call.included
  size : m.size = do return (← selected items calls).length
  rows : (∀ v, .limit v ∈ calls ∨ .offset v ∈ calls → IsBound v) →
    m.rows = (do (finalOrder calls).foldrM sortByClause (← selected items calls)).map
      (finalWindow calls)
  /-- If the clauses can sort the items that are found, this is a single stable sort. -/
  rows_of_sortable : (∀ v, .limit v ∈ calls ∨ .offset v ∈ calls → IsBound v) →
    ∀ found, selected items calls = .ok found →
      found = items.filter (fun item => (addedPredicates calls).all (Predicate.isMet item)) ∧
      ((∀ clause ∈ finalOrder calls, Sortable clause found) →
        m.rows = .ok (finalWindow calls (found.mergeSort (orderLe (finalOrder calls)))))

end

variable {items : List Value} {calls : List Call}

/-- The last one of the bounds that calls set is one of these. -/
theorem isBound_getLast {said : Call → Option Value}
    (h : ∀ call ∈ calls, ∀ v, said call = some v → IsBound v) :
    IsBound ((calls.filterMap said).getLast?.getD .null) := by
  cases hlast : (calls.filterMap said).getLast? with
  | none => exact .inl rfl
  | some v =>
    obtain ⟨call, hcall, hv⟩ := List.mem_filterMap.mp (List.mem_of_getLast? hlast)
    exact h call hcall v hv

theorem items_updateAll (m : Memory) : (m.updateAll calls).items = m.items := by
  induction calls generalizing m with
  | nil => rfl
  | cons call rest ih => exact (ih (call.update m)).trans (by cases call <;> rfl)

/-- **The normal form of a run**: what its calls say, part by part. -/
theorem updateAll_eq : Memory.updateAll calls { items } =
    { items
      predicates := addedPredicates calls
      ordering := finalOrder calls
      joins := calls.flatMap Call.joined
      includes := calls.flatMap Call.included
      limit := lastLimit calls
      offset := lastOffset calls } := by
  have hpredicates : (Memory.updateAll calls { items }).predicates = addedPredicates calls :=
    field_of_appending (fun call m => by cases call <;> simp [Call.update, Call.predicates]) _
  have hordering : (Memory.updateAll calls { items }).ordering = finalOrder calls := by
    rw [ordering_of_updates]
    cases calls.any Call.startsOrder <;> rfl
  have hjoins : (Memory.updateAll calls { items }).joins = calls.flatMap Call.joined :=
    field_of_appending (fun call m => by cases call <;> simp [Call.update, Call.joined]) _
  have hincludes : (Memory.updateAll calls { items }).includes = calls.flatMap Call.included :=
    field_of_appending (fun call m => by cases call <;> simp [Call.update, Call.included]) _
  have hlimit : (Memory.updateAll calls { items }).limit = lastLimit calls :=
    field_of_overwriting (fun call m => by cases call <;> rfl) _
  have hoffset : (Memory.updateAll calls { items }).offset = lastOffset calls :=
    field_of_overwriting (fun call m => by cases call <;> rfl) _
  have hitems : (Memory.updateAll calls { items }).items = items := items_updateAll _
  generalize Memory.updateAll calls { items } = m at *
  cases m
  subst hitems hpredicates hordering hjoins hincludes hlimit hoffset
  rfl

theorem describedBy_updateAll : (Memory.updateAll calls { items }).DescribedBy items calls := by
  have hrows (hbounds : ∀ v, .limit v ∈ calls ∨ .offset v ∈ calls → IsBound v) :
      (Memory.updateAll calls { items }).rows =
        (do (finalOrder calls).foldrM sortByClause (← selected items calls)).map
          (finalWindow calls) := by
    have hlimit : IsBound (lastLimit calls) := isBound_getLast fun call hcall v hv => by
      cases call <;> cases hv
      exact hbounds _ (.inl hcall)
    have hoffset : IsBound (lastOffset calls) := isBound_getLast fun call hcall v hv => by
      cases call <;> cases hv
      exact hbounds _ (.inr hcall)
    rw [updateAll_eq, Memory.rows_of_bounds hlimit hoffset]
    rfl
  constructor
  case ordering => rw [updateAll_eq]
  case joins => rw [updateAll_eq]
  case includes => rw [updateAll_eq]
  case size =>
    rw [updateAll_eq]
    rfl
  case rows => exact hrows
  case rows_of_sortable =>
    intro hbounds found hfound
    refine ⟨?_, fun hsortable => ?_⟩
    · simpa only [Predicate.isYes_allHold] using (filterM_eq_ok_iff.mp hfound).2
    · rw [hrows hbounds, hfound]
      show ((finalOrder calls).foldrM sortByClause found).map _ = _
      rw [foldrM_sortByClause hsortable]
      rfl

/-- **What a run of calls gives.** A run succeeds exactly if each of its calls is accepted, and the
collection is described by what the calls say. Two calls of different kinds that follow each other
may change places: the run gives the same collection. -/
theorem results_of_calls (items : List Value) (calls : List Call) :
    ((∃ m, calls.foldlM (fun m call => Memory.perform call m) { items } = .ok m) ↔
      ∀ call ∈ calls, call.accepted = true) ∧
    ∀ m, calls.foldlM (fun m call => Memory.perform call m) { items } = .ok m →
      m.DescribedBy items calls ∧
      ∀ (before : List Call) (a b : Call) (after : List Call),
        calls = before ++ a :: b :: after → a.kind ≠ b.kind →
          (before ++ b :: a :: after).foldlM (fun m call => Memory.perform call m) { items } =
            .ok m := by
  refine ⟨⟨fun ⟨m, h⟩ => (foldlM_perform_eq_ok_iff.mp h).1, fun hall => ?_⟩, fun m h => ?_⟩
  · exact ⟨_, foldlM_perform_eq_ok_iff.mpr ⟨hall, rfl⟩⟩
  · obtain ⟨hall, rfl⟩ := foldlM_perform_eq_ok_iff.mp h
    refine ⟨describedBy_updateAll, fun before a b after hcalls hkind => ?_⟩
    subst hcalls
    refine foldlM_perform_eq_ok_iff.mpr ⟨fun call hcall => hall call ?_, ?_⟩
    · simpa [or_left_comm] using hcall
    · exact (Memory.updateAll_swap hkind before after _).symm

/-- Calls that set a window first, and that order twice. -/
def shuffledCalls : List Call :=
  [.limit (.int 1), .orderBy [.tuple [.str "id", .str "asc"]], .leftJoin [.str "team"],
    .reorder [.tuple [.str "age", .str "desc"]], .restrict [] [("team", .str "a")],
    .includeRelated [.str "books"], .offset (.int 1)]

/-- The records that `shuffledCalls` are made on. -/
def shuffledItems : List Value :=
  [.record [("id", .int 1), ("age", .int 5), ("team", .str "a")],
    .record [("id", .int 2), ("age", .int 9), ("team", .str "b")],
    .record [("id", .int 3), ("age", .int 7), ("team", .str "a")]]

/-- Of the two records of the team, the older one is skipped. The order may come before the joins as
well. -/
theorem results_of_shuffledCalls :
    ∃ m, shuffledCalls.foldlM (fun m call => Memory.perform call m) { items := shuffledItems } =
        .ok m ∧
      m.rows = .ok [.record [("id", .int 1), ("age", .int 5), ("team", .str "a")]] ∧
      m.size = .ok 2 ∧ m.joins = [.str "team"] ∧ m.includes = [.str "books"] ∧
      [.limit (.int 1), .orderBy [.tuple [.str "id", .str "asc"]],
        .reorder [.tuple [.str "age", .str "desc"]], .leftJoin [.str "team"],
        .restrict [] [("team", .str "a")], .includeRelated [.str "books"], .offset (.int 1)].foldlM
          (fun m call => Memory.perform call m) { items := shuffledItems } = .ok m := by
  obtain ⟨hsucceeds, hresults⟩ := results_of_calls shuffledItems shuffledCalls
  have haccepted : shuffledCalls.all Call.accepted = true := by rfl
  obtain ⟨m, hm⟩ := hsucceeds.mpr (List.all_eq_true.mp haccepted)
  obtain ⟨hdescribed, hswap⟩ := hresults m hm
  have hbounds : ∀ v, Call.limit v ∈ shuffledCalls ∨ Call.offset v ∈ shuffledCalls → IsBound v := by
    intro v hv
    have hone : v = .int 1 := by simpa [shuffledCalls] using hv
    exact .inr ⟨1, by rw [hone]; rfl, by decide⟩
  have hfound : selected shuffledItems shuffledCalls =
      .ok [.record [("id", .int 1), ("age", .int 5), ("team", .str "a")],
        .record [("id", .int 3), ("age", .int 7), ("team", .str "a")]] := by
    with_unfolding_all rfl
  have horder : finalOrder shuffledCalls = [(.str "age", .desc)] := by rfl
  refine ⟨m, hm, ?_, ?_, hdescribed.joins, hdescribed.includes, ?_⟩
  · obtain ⟨-, hsorted⟩ := hdescribed.rows_of_sortable hbounds _ hfound
    rw [horder] at hsorted
    have hsortable : ∀ clause ∈ [(Value.str "age", Direction.desc)], Sortable clause
        [.record [("id", .int 1), ("age", .int 5), ("team", .str "a")],
          .record [("id", .int 3), ("age", .int 7), ("team", .str "a")]] := by
      intro clause hclause
      rw [List.mem_singleton.mp hclause]
      exact ⟨fun item _ => ⟨_, rfl⟩, by decide +kernel⟩
    rw [hsorted hsortable, (ranks_orderLe hsortable).mergeSort_eq_of_places
      rfl (.swap 0 1 []) (by decide +kernel)]
    rfl
  · rw [hdescribed.size, hfound]
    rfl
  · exact hswap [.limit (.int 1), .orderBy [.tuple [.str "id", .str "asc"]]] _ _ _ rfl (by decide)

end ResourceQuery
