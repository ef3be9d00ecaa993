import ResourceQuery.Proofs.Collection.KeyOrder
import ResourceQuery.Proofs.Sql.Reference

/-!
# Orders of rows and of records

A statement puts null first and a collection in memory puts absent values last, so the two only
agree where nothing that is sorted by is missing. There both compare two integers or two texts by
the first clause in which the rows differ.

Headlines:
* **`keyLe_toValue`**: cells of one column stand as their values do, in both directions.
* **`SameOrder`**: an order clause of a statement and one of a collection that agree on two rows.
* **`orderLe_eq_isLE`**: clauses that agree make up orders that agree.
-/

namespace ResourceQuery.Sql

/-! ## One clause -/

section

variable {a : Affinity} {x y : Cell}

/-- Two cells of one column that are not null are two integers or two texts. -/
theorem admits_cases (hx : a.admits x = true) (hy : a.admits y = true) (hx₀ : x ≠ .null)
    (hy₀ : y ≠ .null) :
    (∃ i j, x = .int i ∧ y = .int j) ∨ ∃ s t, x = .text s ∧ y = .text t := by
  rcases Affinity.admits_iff.mp hx with rfl | ⟨i, rfl, rfl⟩ | ⟨s, rfl, rfl⟩
  · exact absurd rfl hx₀
  · rcases Affinity.admits_iff.mp hy with rfl | ⟨j, -, rfl⟩ | ⟨t, ht, -⟩
    · exact absurd rfl hy₀
    · exact Or.inl ⟨i, j, rfl, rfl⟩
    · cases ht
  · rcases Affinity.admits_iff.mp hy with rfl | ⟨j, hj, -⟩ | ⟨t, -, rfl⟩
    · exact absurd rfl hy₀
    · cases hj
    · exact Or.inr ⟨s, t, rfl, rfl⟩

theorem sameKind_toValue (hx : a.admits x = true) (hy : a.admits y = true) (hx₀ : x ≠ .null)
    (hy₀ : y ≠ .null) : Value.SameKind x.toValue y.toValue := by
  rcases admits_cases hx hy hx₀ hy₀ with ⟨i, j, rfl, rfl⟩ | ⟨s, t, rfl, rfl⟩
  · trivial
  · trivial

theorem isLE_compare {α : Type} [LinearOrder α] (p q : α) :
    (compare p q).isLE = !decide (q < p) ∧ (compare p q).swap.isLE = !decide (p < q) := by
  obtain ⟨-, hgt, hlt⟩ := accepts_compare p q
  rw [← hgt, ← hlt]
  cases compare p q <;> exact ⟨rfl, rfl⟩

/-- A cell may stand before another unless the value of that one precedes its own. -/
theorem isLE_place (hx : a.admits x = true) (hy : a.admits y = true) (hx₀ : x ≠ .null)
    (hy₀ : y ≠ .null) :
    (x.place y).isLE = !Value.precedes y.toValue x.toValue ∧
      (x.place y).swap.isLE = !Value.precedes x.toValue y.toValue := by
  rcases admits_cases hx hy hx₀ hy₀ with ⟨i, j, rfl, rfl⟩ | ⟨s, t, rfl, rfl⟩
  · have hplace : (Cell.int i).place (.int j) = compare i j := by
      show ((Cell.int i).compare? (.int j)).getD .eq = _
      rw [Cell.compare?_int, Option.getD_some]
    rw [hplace, Cell.toValue, Cell.toValue, Value.precedes_int, Value.precedes_int]
    exact isLE_compare i j
  · have hplace : (Cell.text s).place (.text t) = compare s t := rfl
    rw [hplace, Cell.toValue, Cell.toValue, Value.precedes_text, Value.precedes_text]
    exact isLE_compare s t

theorem keyLe_asc_of_sameKind {v w : Value} (h : Value.SameKind v w) :
    keyLe .asc v w = !Value.precedes w v := by
  show (keyBelow? w v != some true) = _
  rw [keyBelow?_of_sameKind h.symm]
  cases Value.precedes w v <;> rfl

/-- **Cells of one column stand as their values do**, in both directions. -/
theorem keyLe_toValue (hx : a.admits x = true) (hy : a.admits y = true) (hx₀ : x ≠ .null)
    (hy₀ : y ≠ .null) :
    keyLe .asc x.toValue y.toValue = (x.place y).isLE ∧
      keyLe .desc x.toValue y.toValue = (x.place y).swap.isLE := by
  have hkind := sameKind_toValue hx hy hx₀ hy₀
  obtain ⟨hle, hswap⟩ := isLE_place hx hy hx₀ hy₀
  rw [keyLe_desc, keyLe_asc_of_sameKind hkind, keyLe_asc_of_sameKind hkind.symm]
  exact ⟨hle.symm, hswap.symm⟩

end

/-! ## Several clauses -/

/-- Does an order clause of a collection leave two records as one of a statement leaves two
rows, and the other way round? -/
def SameOrder (p q : JoinedRow) (v w : Value) (c : ColumnRef × Direction)
    (d : Value × Direction) : Prop :=
  clauseLe d v w = (comparePlaces c p q).isLE ∧ clauseLe d w v = (comparePlaces c p q).swap.isLE

theorem sameOrder_of_cells {p q : JoinedRow} {v w : Value} {c : ColumnRef × Direction}
    {d : Value × Direction} (hdirection : c.2 = d.2)
    (hv : sortKey d.1 v = (p.value c.1).toValue) (hw : sortKey d.1 w = (q.value c.1).toValue)
    (hp : c.1.column.affinity.admits (p.value c.1) = true)
    (hq : c.1.column.affinity.admits (q.value c.1) = true) (hp₀ : p.value c.1 ≠ .null)
    (hq₀ : q.value c.1 ≠ .null) : SameOrder p q v w c d := by
  obtain ⟨hasc, hdesc⟩ := keyLe_toValue hp hq hp₀ hq₀
  unfold SameOrder clauseLe comparePlaces
  rw [hv, hw, ← hdirection]
  cases c.2 with
  | asc => exact ⟨hasc, hdesc⟩
  | desc =>
    refine ⟨hdesc, ?_⟩
    rw [keyLe_desc, hasc, Ordering.swap_swap]

theorem isLE_then (o o' : Ordering) : (o.then o').isLE = (o.isLE && (!o.swap.isLE || o'.isLE)) := by
  cases o <;> cases o' <;> rfl

/-- **Clauses that agree make up orders that agree.** -/
theorem orderLe_eq_isLE {p q : JoinedRow} {v w : Value} {order : List (ColumnRef × Direction)}
    {ordering : List (Value × Direction)} (h : List.Forall₂ (SameOrder p q v w) order ordering) :
    orderLe ordering v w = (compareRows order p q).isLE := by
  induction h with
  | nil => rfl
  | cons hclause _ ih =>
    rw [orderLe, compareRows, isLE_then, Stable.thenLe, hclause.1, hclause.2, ih]

theorem sortKey_eq_of_clauseLe {d : Value × Direction} {v w : Value}
    (hkind : Value.SameKind (sortKey d.1 v) (sortKey d.1 w)) (hvw : clauseLe d v w = true)
    (hwv : clauseLe d w v = true) : sortKey d.1 v = sortKey d.1 w := by
  have hasc := keyLe_asc_of_clauseLe hvw hwv
  rw [keyLe_asc_of_sameKind hkind, keyLe_asc_of_sameKind hkind.symm] at hasc
  exact Value.eq_of_not_precedes hkind (by simpa using hasc.2) (by simpa using hasc.1)

end ResourceQuery.Sql
