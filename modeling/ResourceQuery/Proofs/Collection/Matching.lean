import ResourceQuery.Collection.Memory

/-!
# The records that match

A record matches if it satisfies every predicate. Predicates that are added later only see the
records that satisfy the ones before them, so they narrow the matching records.

Headlines:
* **`Predicate.isMet`**: a predicate that holds and does not fail.
* **`filterM_eq_ok_iff`**: when a list can be filtered by tests that may fail, and what is left.
* **`Memory.matching_eq_ok_iff`**: the matching records are those that meet every predicate.
* **`Memory.matching_narrowed`**: a further predicate narrows the matching records.
-/

namespace ResourceQuery

/-- Did a test that may fail succeed? -/
def isYes {ε : Type} : Except ε Bool → Bool
  | .ok b => b
  | .error _ => false

theorem filterAuxM_eq {α ε : Type} {f : α → Except ε Bool} :
    ∀ {xs acc : List α}, (∀ x ∈ xs, ∃ b, f x = .ok b) →
      xs.filterAuxM f acc = .ok ((xs.filter fun x => isYes (f x)).reverse ++ acc)
  | [], acc, _ => rfl
  | x :: xs, acc, h => by
    rw [List.forall_mem_cons] at h
    obtain ⟨b, hb⟩ := h.1
    rw [List.filterAuxM, hb]
    show xs.filterAuxM f (cond b (x :: acc) acc) = _
    rw [filterAuxM_eq h.2]
    cases b with
    | true => simp [hb, isYes]
    | false => simp [hb, isYes]

theorem exists_of_filterAuxM {α ε : Type} {f : α → Except ε Bool} :
    ∀ {xs acc out : List α}, xs.filterAuxM f acc = .ok out → ∀ x ∈ xs, ∃ b, f x = .ok b
  | [], _, _, _ => by simp
  | x :: xs, acc, out, h => by
    rw [List.filterAuxM] at h
    obtain ⟨b, hb, h⟩ := Sorting.eq_ok_of_bind h
    exact List.forall_mem_cons.mpr ⟨⟨b, hb⟩, exists_of_filterAuxM h⟩

/-- **A list can be filtered by tests that may fail** exactly if none of them does. -/
theorem filterM_eq_ok_iff {α ε : Type} {f : α → Except ε Bool} {xs out : List α} :
    xs.filterM f = .ok out ↔
      (∀ x ∈ xs, ∃ b, f x = .ok b) ∧ out = xs.filter fun x => isYes (f x) := by
  have hfilter (h : ∀ x ∈ xs, ∃ b, f x = .ok b) :
      xs.filterM f = .ok (xs.filter fun x => isYes (f x)) := by
    rw [List.filterM, filterAuxM_eq h, List.append_nil]
    exact congrArg Except.ok (List.reverse_reverse _)
  constructor
  · intro h
    obtain ⟨reversed, hreversed, -⟩ := Sorting.eq_ok_of_bind h
    have hall := exists_of_filterAuxM hreversed
    rw [hfilter hall] at h
    cases h
    exact ⟨hall, rfl⟩
  · rintro ⟨hall, rfl⟩
    exact hfilter hall

namespace Predicate

/-- Does a record satisfy a predicate, without the predicate failing on it? -/
def isMet (item : Value) (p : Predicate) : Bool := isYes (p.holds item)

theorem isYes_allHold (item : Value) (ps : List Predicate) :
    isYes (allHold item ps) = ps.all (isMet item) := by
  induction ps with
  | nil => rfl
  | cons p ps ih =>
    rw [List.all_cons, ← ih, allHold, isMet]
    cases hp : p.holds item with
    | error e => rfl
    | ok b =>
      cases b with
      | true => rfl
      | false => rfl

/-- Later predicates are asked of a record that satisfies the ones before them. -/
theorem allHold_append (item : Value) (ps qs : List Predicate) :
    allHold item (ps ++ qs) = do if ← allHold item ps then allHold item qs else return false := by
  induction ps with
  | nil => rfl
  | cons p ps ih =>
    rw [List.cons_append, allHold, allHold, ih]
    cases hp : p.holds item with
    | error e => rfl
    | ok b =>
      cases b with
      | true => rfl
      | false => rfl

theorem allHold_singleton {item : Value} {p : Predicate} {b : Bool} (h : p.holds item = .ok b) :
    allHold item [p] = .ok b := by
  rw [allHold, h]
  cases b with
  | true => rfl
  | false => rfl

/-- An equation has an answer unless it asks for membership of a set. -/
theorem exists_holds_equation {path : String} {expected : Value}
    (h : ∀ items, expected ≠ .set items) (item : Value) :
    ∃ answer, holds item (.equation path expected) = .ok answer := by
  show ∃ answer, meets (item.resolve path) expected = .ok answer
  unfold meets
  split
  · exact ⟨_, rfl⟩
  · exact ⟨_, rfl⟩
  · exact absurd rfl (h _)
  · exact ⟨_, rfl⟩

theorem exists_allHold {item : Value} {ps : List Predicate}
    (h : ∀ p ∈ ps, ∃ answer, p.holds item = .ok answer) :
    ∃ answer, allHold item ps = .ok answer := by
  induction ps with
  | nil => exact ⟨true, rfl⟩
  | cons p rest ih =>
    rw [List.forall_mem_cons] at h
    obtain ⟨answer, hanswer⟩ := h.1
    rw [allHold, hanswer]
    cases answer with
    | false => exact ⟨false, rfl⟩
    | true => exact ih h.2

end Predicate

namespace Memory

/-- **The matching records** are those that meet every predicate, if no predicate that is asked
fails. -/
theorem matching_eq_ok_iff {m : Memory} {matching : List Value} :
    m.matching = .ok matching ↔
      (∀ item ∈ m.items, ∃ b, Predicate.allHold item m.predicates = .ok b) ∧
        matching = m.items.filter fun item => m.predicates.all (Predicate.isMet item) := by
  simp only [Memory.matching, filterM_eq_ok_iff, Predicate.isYes_allHold]

/-- A further predicate narrows the matching records. -/
theorem matching_narrowed {m m' : Memory} {matching : List Value} {p : Predicate}
    {test : Value → Bool} (h : m.matching = .ok matching) (hitems : m'.items = m.items)
    (hpredicates : m'.predicates = m.predicates ++ [p])
    (htest : ∀ item ∈ matching, p.holds item = .ok (test item)) :
    m'.matching = .ok (matching.filter test) := by
  obtain ⟨hall, hmatching⟩ := matching_eq_ok_iff.mp h
  have hmem {item : Value} (hitem : item ∈ m.items)
      (hyes : Predicate.allHold item m.predicates = .ok true) : item ∈ matching := by
    rw [hmatching, List.mem_filter, ← Predicate.isYes_allHold, hyes]
    exact ⟨hitem, rfl⟩
  have hholds : ∀ item ∈ m.items, Predicate.allHold item (m.predicates ++ [p]) =
      .ok (m.predicates.all (Predicate.isMet item) && test item) := by
    intro item hitem
    obtain ⟨b, hb⟩ := hall item hitem
    rw [Predicate.allHold_append, ← Predicate.isYes_allHold, hb]
    cases b with
    | false => rfl
    | true => exact Predicate.allHold_singleton (htest item (hmem hitem hb))
  rw [Memory.matching, filterM_eq_ok_iff, hitems, hpredicates]
  refine ⟨fun item hitem => ⟨_, hholds item hitem⟩, ?_⟩
  rw [hmatching, List.filter_filter]
  refine List.filter_congr fun item hitem => ?_
  rw [hholds item hitem, isYes, Bool.and_comm]

end Memory

end ResourceQuery
