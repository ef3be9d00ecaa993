import Mathlib.Data.String.Basic
import ResourceQuery.Collection.Memory

/-!
# Integers and texts

Integers compare by size and texts by code points, so the equality and the order of two values
of one of these kinds are the usual ones.

Headlines:
* **`Value.same_int`**, **`below?_int`**: equality and order of integers.
* **`Value.same_text`**, **`below?_text`**: equality and order of texts.
* **`Value.SameKind`**: two integers or two texts.
* **`keyBelow?_of_sameKind`**, **`Value.eq_of_not_precedes`**: their order is a strict linear one.
-/

namespace ResourceQuery

namespace Value

open Number

theorem same_int (i j : Int) : same (.int i) (.int j) = decide (i = j) := by
  have h : same (.int i) (.int j) = (compare i j == .eq) := by
    simp only [same, sameScalar, text?, sameNumber, number?, Binary64.compare?_ofInt]
    rfl
  rw [h, Bool.eq_iff_iff, beq_iff_eq, Int.compare_eq_eq, decide_eq_true_iff]

theorem below?_int (i j : Int) : below? (.int i) (.int j) = some (decide (i < j)) := by
  have h : below? (.int i) (.int j) = some (compare i j == .lt) := by
    simp only [below?, belowScalar?, text?, belowNumber?, number?, bind, Option.bind_some,
      Binary64.compare?_ofInt]
    rfl
  rw [h, Option.some.injEq, Bool.eq_iff_iff, beq_iff_eq, Int.compare_eq_lt, decide_eq_true_iff]

theorem same_text (s t : String) : same (.str s) (.str t) = decide (s = t) := by
  simp only [same, sameScalar, text?]
  rfl

theorem below?_text (s t : String) : below? (.str s) (.str t) = some (decide (s < t)) := by
  simp only [below?, belowScalar?, text?]

/-- Two integers or two texts. -/
def SameKind : Value → Value → Prop
  | .int _, .int _ => True
  | .str _, .str _ => True
  | _, _ => False

theorem sameKind_iff {a b : Value} :
    SameKind a b ↔ (∃ i j, a = .int i ∧ b = .int j) ∨ ∃ s t, a = .str s ∧ b = .str t := by
  constructor
  · intro h
    unfold SameKind at h
    split at h
    · next i j => exact Or.inl ⟨i, j, rfl, rfl⟩
    · next s t => exact Or.inr ⟨s, t, rfl, rfl⟩
    · exact h.elim
  · rintro (⟨i, j, rfl, rfl⟩ | ⟨s, t, rfl, rfl⟩)
    · trivial
    · trivial

theorem SameKind.symm {a b : Value} (h : SameKind a b) : SameKind b a := by
  rw [sameKind_iff] at h ⊢
  rcases h with ⟨i, j, rfl, rfl⟩ | ⟨s, t, rfl, rfl⟩
  · exact Or.inl ⟨j, i, rfl, rfl⟩
  · exact Or.inr ⟨t, s, rfl, rfl⟩

/-- Is the first value known to be less than the second? -/
def precedes (a b : Value) : Bool := a.below? b == some true

theorem precedes_int (i j : Int) : precedes (.int i) (.int j) = decide (i < j) := by
  rw [precedes, below?_int]
  simp

theorem precedes_text (s t : String) : precedes (.str s) (.str t) = decide (s < t) := by
  rw [precedes, below?_text]
  exact Bool.eq_iff_iff.mpr (by rw [beq_iff_eq, Option.some.injEq])

theorem below?_of_sameKind {a b : Value} (h : SameKind a b) :
    a.below? b = some (precedes a b) := by
  rcases sameKind_iff.mp h with ⟨i, j, rfl, rfl⟩ | ⟨s, t, rfl, rfl⟩
  · rw [precedes_int, below?_int]
  · rw [precedes_text, below?_text]

theorem same_of_sameKind {a b : Value} (h : SameKind a b) : a.same b = true ↔ a = b := by
  rcases sameKind_iff.mp h with ⟨i, j, rfl, rfl⟩ | ⟨s, t, rfl, rfl⟩
  · rw [same_int, decide_eq_true_iff, Value.int.injEq]
  · rw [same_text, decide_eq_true_iff, Value.str.injEq]

/-- **Of two different integers or texts one precedes the other.** -/
theorem eq_of_not_precedes {a b : Value} (h : SameKind a b) (hab : precedes a b = false)
    (hba : precedes b a = false) : a = b := by
  rcases sameKind_iff.mp h with ⟨i, j, rfl, rfl⟩ | ⟨s, t, rfl, rfl⟩
  · rw [precedes_int, decide_eq_false_iff_not] at hab hba
    exact congrArg Value.int (by omega)
  · rw [precedes_text, decide_eq_false_iff_not, not_lt] at hab hba
    exact congrArg Value.str (le_antisymm hba hab)

theorem precedes_irrefl {a : Value} (h : SameKind a a) : precedes a a = false := by
  rcases sameKind_iff.mp h with ⟨i, j, hi, -⟩ | ⟨s, t, hs, -⟩
  · rw [hi, precedes_int, decide_eq_false_iff_not]
    omega
  · rw [hs, precedes_text, decide_eq_false_iff_not]
    exact lt_irrefl s

theorem isRanked_of_sameKind {a b : Value} (h : SameKind a b) : a.isRanked = true := by
  rcases sameKind_iff.mp h with ⟨i, j, rfl, rfl⟩ | ⟨s, t, rfl, rfl⟩
  · rfl
  · rfl

theorem isNull_of_sameKind {a b : Value} (h : SameKind a b) : a.isNull = false := by
  rcases sameKind_iff.mp h with ⟨i, j, rfl, rfl⟩ | ⟨s, t, rfl, rfl⟩
  · rfl
  · rfl

end Value

open Value

/-- **Sort keys that are integers or texts** compare as such. -/
theorem keyBelow?_of_sameKind {a b : Value} (h : SameKind a b) :
    keyBelow? a b = some (precedes a b) := by
  unfold keyBelow?
  rw [isNull_of_sameKind h, isNull_of_sameKind h.symm, below?_of_sameKind h]
  by_cases hsame : a.same b = true
  · have heq : a = b := (same_of_sameKind h).mp hsame
    subst heq
    simp [hsame, precedes_irrefl h]
  · simp [hsame]

end ResourceQuery
