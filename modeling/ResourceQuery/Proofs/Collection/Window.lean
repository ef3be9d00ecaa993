import ResourceQuery.Collection.Memory

/-!
# The window of a collection

A window is applied after sorting, whatever the order of the calls was, and it is applied by
places: so many records are skipped, and of the rest at most so many are kept.

Headlines:
* **`slice_eq_take_drop`**: a slice whose bounds are not negative skips and keeps records.
* **`Memory.rows_of_window`**: the records of a collection with an offset and a limit.
* **`Memory.rows_of_start`**: those of a collection that has no limit.
* **`Memory.rows_unwindowed`**: without them all sorted records are its records.
* **`windowCount`**: how many windows of one size so many records fill.
* **`flatMap_windows`**: windows of one size that follow each other make up one longer window.
-/

namespace ResourceQuery

theorem slice_eq_take_drop {α : Type} {start count : Int} (hstart : 0 ≤ start)
    (hcount : 0 ≤ count) (xs : List α) :
    Value.slice start (some (start + count)) xs =
      (xs.drop start.toNat).take count.toNat := by
  have hfirst : Value.clampIndex xs.length start = min start.toNat xs.length :=
    if_neg (by omega)
  have hlast : Value.clampIndex xs.length (start + count) =
      min (start + count).toNat xs.length := if_neg (by omega)
  simp only [Value.slice, Option.map_some, Option.getD_some, hfirst, hlast]
  rw [← List.take_eq_take_min, List.drop_take]
  rcases Nat.le_total start.toNat xs.length with h | h
  · rw [Nat.min_eq_left h]
    congr 1
    omega
  · rw [Nat.min_eq_right h, List.drop_length, List.drop_eq_nil_of_le h, List.take_nil,
      List.take_nil]

theorem slice_eq_drop {α : Type} {start : Int} (hstart : 0 ≤ start) (xs : List α) :
    Value.slice start none xs = xs.drop start.toNat := by
  have hfirst : Value.clampIndex xs.length start = min start.toNat xs.length :=
    if_neg (by omega)
  simp only [Value.slice, Option.map_none, Option.getD_none, hfirst, List.take_length]
  rcases Nat.le_total start.toNat xs.length with h | h
  · rw [Nat.min_eq_left h]
  · rw [Nat.min_eq_right h, List.drop_length, List.drop_eq_nil_of_le h]

namespace Memory

theorem start_of_wholeNumber? {m : Memory} {start : Int}
    (h : m.offset.wholeNumber? = some start) : m.start = .ok start := by
  unfold Memory.start
  split
  · rw [wholeNumber, h]
  · next hfalse =>
    cases hoffset : m.offset with
    | bool b =>
      rw [hoffset] at h hfalse
      cases b with
      | true => exact absurd rfl hfalse
      | false => exact congrArg Except.ok (Option.some.inj h)
    | int i =>
      rw [hoffset] at h hfalse
      have hzero : i = 0 := by simpa [Value.isTruthy] using hfalse
      exact congrArg Except.ok (hzero.symm.trans (Option.some.inj h))
    | _ =>
      rw [hoffset] at h
      cases h

theorem stop_of_wholeNumber? {m : Memory} {start count : Int} (hstart : m.start = .ok start)
    (h : m.limit.wholeNumber? = some count) : m.stop = .ok (some (start + count)) := by
  have hnull : m.limit.isNull = false := by
    cases hlimit : m.limit <;> rw [hlimit] at h <;> first | rfl | cases h
  rw [stop, hnull, hstart, wholeNumber, h]
  rfl

/-- **The records of a window**: of the sorted records so many are skipped and so many kept. -/
theorem rows_of_window {m : Memory} {start count : Int} (hstart : m.start = .ok start)
    (hlimit : m.limit.wholeNumber? = some count) (hstart₀ : 0 ≤ start) (hcount₀ : 0 ≤ count) :
    m.rows = m.sorted.map fun sorted => (sorted.drop start.toNat).take count.toNat := by
  rw [rows, hstart, stop_of_wholeNumber? hstart hlimit]
  cases m.sorted with
  | error e => rfl
  | ok sorted => exact congrArg Except.ok (slice_eq_take_drop hstart₀ hcount₀ sorted)

/-- Without a limit the records reach to the end. -/
theorem rows_of_start {m : Memory} {start : Int} (hstart : m.start = .ok start)
    (hlimit : m.limit = .null) (hstart₀ : 0 ≤ start) :
    m.rows = m.sorted.map fun sorted => sorted.drop start.toNat := by
  have hstop : m.stop = .ok none := by
    rw [stop, hlimit]
    rfl
  rw [rows, hstart, hstop]
  cases m.sorted with
  | error e => rfl
  | ok sorted => exact congrArg Except.ok (slice_eq_drop hstart₀ sorted)

/-- The collection without its window. -/
def unwindowed (m : Memory) : Memory := { m with limit := .null, offset := .null }

/-- Without a window all sorted records are the records. -/
theorem rows_unwindowed (m : Memory) : m.unwindowed.rows = m.sorted := by
  have hsorted : m.unwindowed.sorted = m.sorted := rfl
  rw [rows_of_start rfl rfl (Int.le_refl 0), hsorted]
  cases m.sorted with
  | error e => rfl
  | ok sorted => rfl

end Memory

/-! ## Windows that follow each other -/

/-- The number of windows of one size that so many records fill, the last one perhaps in part. -/
def windowCount (records size : Nat) : Nat := (records + size - 1) / size

/-- There are records from where a window starts exactly if the window is among those. -/
theorem lt_windowCount_iff {size : Nat} (hsize : 0 < size) (records i : Nat) :
    i < windowCount records size ↔ size * i < records := by
  have hmul : (i + 1) * size = size * i + size := by rw [Nat.succ_mul, Nat.mul_comm]
  rw [windowCount, Nat.lt_iff_add_one_le, Nat.le_div_iff_mul_le hsize, hmul]
  omega

theorem le_mul_windowCount {size : Nat} (hsize : 0 < size) (records : Nat) :
    records ≤ size * windowCount records size := by
  refine Nat.le_of_not_lt fun h => ?_
  exact Nat.lt_irrefl _ ((lt_windowCount_iff hsize records _).mpr h)

/-- **Windows of one size that follow each other** make up one longer window. -/
theorem flatMap_windows {α : Type} (xs : List α) (size count : Nat) :
    ((List.range count).flatMap fun i => (xs.drop (size * i)).take size) =
      xs.take (size * count) := by
  induction count with
  | zero => simp
  | succ count ih =>
    rw [List.range_succ, List.flatMap_append, ih, Nat.mul_succ, List.take_add]
    simp

end ResourceQuery
