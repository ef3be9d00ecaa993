import ResourceQuery.Proofs.Collection.Window
import ResourceQuery.Proofs.Sql.Steps
import ResourceQuery.Proofs.Sql.Tests

/-!
# Running a statement whose parameters can be bound

A statement runs if each of its parameters can be bound. The restrictions that are not written
change nothing, so it then selects the rows of which all its restrictions are true, in order and
within its window. The window is the one that a collection in memory applies.

Headlines:
* **`Statement.rows_of_isBindable`**, **`Statement.count_of_isBindable`**: what such a statement
  selects and counts.
* **`rows_of_cut`**: a collection in memory cuts out the window of a statement.
-/

namespace ResourceQuery.Sql

variable {E : Type}

/-- A bound of a window: an integer of 64 bits that is not negative. -/
def IsBound (n : Int) : Prop := 0 ≤ n ∧ isStorable n = true

/-! ## Parameters -/

theorem isBindable_conditions {rs : List (Restriction E)} (h : ∀ r ∈ rs, r.IsBindable)
    {r : Restriction E} (hr : r ∈ conditions rs) : r.IsBindable := by
  rcases mem_conditions hr with hr | rfl
  · exact h r hr
  · exact ⟨rfl, fun v hv => absurd hv List.not_mem_nil⟩

theorem bindParameter_int {n : Int} (h : isStorable n = true) :
    bindParameter (.int n) = .ok (operandCell (.int n)) := by
  simp [bindParameter, Value.wholeNumber?, Cell.ofValue?, operandCell, h]

namespace Statement

variable {s : Statement E} {db : Database E}

/-- The statement with the restrictions that are written. -/
def written (s : Statement E) : Statement E := { s with restrictions := conditions s.restrictions }

theorem prepared_of_isBindable (h : ∀ r ∈ s.restrictions, r.IsBindable) :
    s.prepared = .ok s.written := by
  unfold Statement.prepared
  rw [mapM_eq_ok_map (g := id) fun r hr => (isBindable_conditions h hr).prepared, List.map_id]
  rfl

theorem restricted_written (s : Statement E) (db : Database E) :
    s.written.restricted db = s.restricted db := by
  show (s.joined db).filter _ = (s.joined db).filter _
  refine List.filter_congr fun row _ => ?_
  exact all_conditions db row s.restrictions

theorem bindParameter_of_mem_operands (h : ∀ r ∈ s.restrictions, r.IsBindable) {v : Value}
    (hv : v ∈ s.written.operands) : bindParameter v = .ok (operandCell v) := by
  obtain ⟨r, hr, hv⟩ := List.mem_flatMap.mp hv
  have hr' : ∀ r ∈ conditions s.restrictions, r.IsBindable := fun r hr =>
    isBindable_conditions h hr
  exact (isBindable_conditions hr' hr).operands v hv

theorem bindParameter_of_mem_windowParameters {v : Value} (hv : v ∈ s.windowParameters)
    (hwindow : ∀ n, s.limit = some n ∨ s.offset = some n → IsBound n) :
    bindParameter v = .ok (operandCell v) := by
  have hlimit : isStorable (s.limit.getD (-1)) = true := by
    cases h : s.limit with
    | none => rfl
    | some n => exact (hwindow n (Or.inl h)).2
  have hoffset : isStorable (s.offset.getD 0) = true := by
    cases h : s.offset with
    | none => rfl
    | some n => exact (hwindow n (Or.inr h)).2
  unfold windowParameters at hv
  split at hv
  · rcases List.mem_pair.mp hv with rfl | rfl
    · exact bindParameter_int hlimit
    · exact bindParameter_int hoffset
  · cases hv

/-- **What a statement selects** whose parameters can be bound. -/
theorem rows_of_isBindable [Schema E] (h : ∀ r ∈ s.restrictions, r.IsBindable)
    (hwindow : ∀ n, s.limit = some n ∨ s.offset = some n → IsBound n) :
    s.rows db = .ok ((cut s.limit s.offset (s.ordered db)).filterMap (·.root)) := by
  have hparameters : s.written.parameters.mapM bindParameter =
      .ok (s.written.parameters.map operandCell) := by
    refine mapM_eq_ok_map fun v hv => ?_
    rcases List.mem_append.mp hv with hv | hv
    · exact bindParameter_of_mem_operands h hv
    · exact bindParameter_of_mem_windowParameters hv hwindow
  have hordered : s.written.ordered db = s.ordered db := by
    unfold Statement.ordered
    rw [restricted_written]
    rfl
  unfold Statement.rows
  rw [prepared_of_isBindable h]
  simp only [bind, Except.bind]
  rw [hparameters]
  simp only
  rw [hordered]
  rfl

/-- **What a statement counts** whose parameters can be bound. -/
theorem count_of_isBindable (h : ∀ r ∈ s.restrictions, r.IsBindable) :
    s.count db = .ok (s.restricted db).length := by
  have hoperands : s.written.operands.mapM bindParameter =
      .ok (s.written.operands.map operandCell) :=
    mapM_eq_ok_map fun v hv => bindParameter_of_mem_operands h hv
  unfold Statement.count
  rw [prepared_of_isBindable h]
  simp only [bind, Except.bind]
  rw [hoperands]
  simp only
  rw [restricted_written]
  rfl

/-! ## The window -/

section

variable {α β : Type} {limit offset : Option Int}

theorem cut_map (f : α → β) (xs : List α) :
    cut limit offset (xs.map f) = (cut limit offset xs).map f := by
  unfold cut
  cases limit with
  | none => exact (List.map_drop ..).symm
  | some n =>
    simp only
    split
    · exact (List.map_drop ..).symm
    · rw [← List.map_drop, List.map_take]

theorem mem_of_mem_cut {a : α} {xs : List α} (h : a ∈ cut limit offset xs) : a ∈ xs := by
  unfold cut at h
  cases limit with
  | none => exact List.mem_of_mem_drop h
  | some n =>
    simp only at h
    split at h
    · exact List.mem_of_mem_drop h
    · exact List.mem_of_mem_drop (List.mem_of_mem_take h)

end

end Statement

/-- **A collection in memory cuts out the window of a statement.** -/
theorem rows_of_cut {m : Memory} {limit offset : Option Int}
    (hlimit : m.limit = Value.ofOption limit) (hoffset : m.offset = Value.ofOption offset)
    (hwindow : ∀ n, limit = some n ∨ offset = some n → IsBound n) :
    m.rows = m.sorted.map (Statement.cut limit offset) := by
  have hstart₀ : 0 ≤ offset.getD 0 := by
    cases offset with
    | none => exact Int.le_refl 0
    | some n => exact (hwindow n (Or.inr rfl)).1
  have hstart : m.start = .ok (offset.getD 0) := by
    cases offset with
    | none =>
      unfold Memory.start
      rw [hoffset]
      rfl
    | some n =>
      refine Memory.start_of_wholeNumber? ?_
      rw [hoffset]
      rfl
  cases limit with
  | none => exact Memory.rows_of_start hstart hlimit hstart₀
  | some n =>
    have hn := (hwindow n (Or.inl rfl)).1
    have hcut : Statement.cut (some n) offset =
        fun sorted : List Value => (sorted.drop (offset.getD 0).toNat).take n.toNat := by
      funext sorted
      exact if_neg (by omega)
    rw [hcut]
    refine Memory.rows_of_window hstart ?_ hstart₀ hn
    rw [hlimit]
    rfl

end ResourceQuery.Sql
