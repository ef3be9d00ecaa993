import ResourceQuery.Proofs.Collection.KeyOrder
import ResourceQuery.Proofs.Sql.Reference
import ResourceQuery.Proofs.Value.Lookup
import ResourceQuery.Sql.TableQuery

/-!
# Restrictions and predicates

A restriction of a column and a predicate on the attribute at a path ask the same if the value
that is compared is of the column's kind. Null then equals nothing but null, and no bound lies
above or below it, in a statement as in memory.

Headlines:
* **`Affinity.takes`**: values of the kind of a column.
* **`SameTest`**: a restriction and a predicate that have the same answer wherever the column and
  the attribute have the same value.
* **`restrictionFor_of_expects`**: equations, memberships and tests for null are such.
* **`comparisonFor_of_takes`**: bounds are such.
-/

namespace ResourceQuery.Sql

open Number

/-! ## Values of a kind -/

/-- Is a value of the kind that a column prefers? Integers have to fit into 64 bits. -/
def Affinity.takes : Affinity → Value → Bool
  | .integer, .int i => isStorable i
  | .integer, _ => false
  | .text, v => v.text?.isSome

/-- Can a column be asked to equal a value, or to be among its items? -/
def Affinity.expects (a : Affinity) : Value → Bool
  | .null => true
  | .list items | .tuple items | .set items => items.all a.takes
  | v => a.takes v

theorem Affinity.takes_iff {a : Affinity} {v : Value} :
    a.takes v = true ↔ (∃ i, a = .integer ∧ v = .int i ∧ isStorable i = true) ∨
      ∃ s, a = .text ∧ v.text? = some s := by
  cases a with
  | integer => cases v <;> simp [Affinity.takes]
  | text => simp [Affinity.takes, Option.isSome_iff_exists]

theorem Affinity.expects_iff {a : Affinity} {v : Value} :
    a.expects v = true ↔ v = .null ∨ a.takes v = true ∨
      ∃ items, (v = .list items ∨ v = .tuple items ∨ v = .set items) ∧
        ∀ item ∈ items, a.takes item = true := by
  cases a <;> cases v <;> simp [Affinity.expects, Affinity.takes, Value.text?]

/-- A value of a column's kind is an integer, a text, or a direction that counts as one. -/
theorem takes_cases {a : Affinity} {v : Value} (h : a.takes v = true) :
    (∃ i, v = .int i) ∨ (∃ s, v = .str s) ∨ ∃ d, v = .direction d := by
  rcases Affinity.takes_iff.mp h with ⟨i, -, rfl, -⟩ | ⟨s, -, hs⟩
  · exact Or.inl ⟨i, rfl⟩
  · rcases Value.exists_of_text? hs with rfl | ⟨d, rfl, -⟩
    · exact Or.inr (Or.inl ⟨s, rfl⟩)
    · exact Or.inr (Or.inr ⟨d, rfl⟩)

section

variable {a : Affinity} {v : Value} {x : Cell}

theorem ofValue?_of_text? {s : String} (h : v.text? = some s) :
    Cell.ofValue? v = some (.text s) := by
  rcases Value.exists_of_text? h with rfl | ⟨d, rfl, rfl⟩
  · rfl
  · rfl

/-- A value of a column's kind can be bound. -/
theorem bindParameter_of_takes (h : a.takes v = true) :
    bindParameter v = .ok (operandCell v) := by
  unfold bindParameter operandCell
  rcases Affinity.takes_iff.mp h with ⟨i, rfl, rfl, hi⟩ | ⟨s, rfl, hs⟩
  · simp [Value.wholeNumber?, Cell.ofValue?, hi]
  · have hwhole : v.wholeNumber? = none := by
      rcases Value.exists_of_text? hs with rfl | ⟨d, rfl, -⟩
      · rfl
      · rfl
    simp [hwhole, ofValue?_of_text? hs]

/-- A column compares a value of its kind as it is. -/
theorem convert_of_takes (h : a.takes v = true) :
    a.convert (operandCell v) = operandCell v := by
  unfold operandCell
  rcases Affinity.takes_iff.mp h with ⟨i, rfl, rfl, -⟩ | ⟨s, rfl, hs⟩
  · rfl
  · rw [ofValue?_of_text? hs]
    rfl

theorem below?_of_text? {v w : Value} {s t : String} (hv : v.text? = some s)
    (hw : w.text? = some t) : v.below? w = some (decide (s < t)) := by
  rcases Value.exists_of_text? hv with rfl | ⟨d, rfl, rfl⟩ <;>
    rcases Value.exists_of_text? hw with rfl | ⟨e, rfl, rfl⟩ <;> rfl

theorem null_same_of_takes (h : a.takes v = true) : Value.null.same v = false := by
  rcases takes_cases h with ⟨i, rfl⟩ | ⟨s, rfl⟩ | ⟨d, rfl⟩ <;>
    simp [Value.same, Value.sameScalar, Value.text?, Value.sameNumber, Value.number?]

/-- A cell of a column and a value of its kind: two integers, two texts, or null and a value. -/
theorem admits_takes_cases (hx : a.admits x = true) (hv : a.takes v = true) :
    x = .null ∨ (∃ i j, x = .int i ∧ v = .int j) ∨ ∃ s t, x = .text s ∧ v.text? = some t := by
  rcases Affinity.takes_iff.mp hv with ⟨j, rfl, rfl, -⟩ | ⟨t, rfl, ht⟩
  · rcases Affinity.admits_iff.mp hx with rfl | ⟨i, -, rfl⟩ | ⟨s, hs, -⟩
    · exact Or.inl rfl
    · exact Or.inr (Or.inl ⟨i, j, rfl, rfl⟩)
    · cases hs
  · rcases Affinity.admits_iff.mp hx with rfl | ⟨i, hi, -⟩ | ⟨s, -, rfl⟩
    · exact Or.inl rfl
    · cases hi
    · exact Or.inr (Or.inr ⟨s, t, rfl, ht⟩)

theorem operandCell_of_text? {s : String} (h : v.text? = some s) : operandCell v = .text s := by
  rw [operandCell, ofValue?_of_text? h]
  rfl

/-- **Equality of a cell and a value** of the column's kind is that of the values. -/
theorem toValue_same (hx : a.admits x = true) (hv : a.takes v = true) :
    x.toValue.same v = (x.compare? (operandCell v)).any ColumnOp.eq.accepts := by
  rcases admits_takes_cases hx hv with rfl | ⟨i, j, rfl, rfl⟩ | ⟨s, t, rfl, ht⟩
  · rw [Cell.toValue, null_same_of_takes hv]
    rfl
  · show Value.same (.int i) (.int j) = ((Cell.int i).compare? (.int j)).any _
    rw [Value.same_int, Cell.compare?_int, Option.any_some]
    exact (accepts_compare i j).1.symm
  · rw [operandCell_of_text? ht, Cell.toValue, Value.same_of_text? rfl ht, Cell.compare?_text,
      Option.any_some]
    exact (accepts_compare s t).1.symm

/-- **Order of a cell and a value** of the column's kind is that of the values. -/
theorem below?_toValue (hx : a.admits x = true) (hnull : x ≠ .null) (hv : a.takes v = true) :
    v.below? x.toValue = some ((x.compare? (operandCell v)).any ColumnOp.gt.accepts) ∧
      x.toValue.below? v = some ((x.compare? (operandCell v)).any ColumnOp.lt.accepts) := by
  rcases admits_takes_cases hx hv with rfl | ⟨i, j, rfl, rfl⟩ | ⟨s, t, rfl, ht⟩
  · exact absurd rfl hnull
  · show Value.below? (.int j) (.int i) = some (((Cell.int i).compare? (.int j)).any _) ∧
      Value.below? (.int i) (.int j) = some (((Cell.int i).compare? (.int j)).any _)
    rw [Value.below?_int, Value.below?_int, Cell.compare?_int, Option.any_some, Option.any_some]
    obtain ⟨-, hgt, hlt⟩ := accepts_compare i j
    exact ⟨congrArg some hgt.symm, congrArg some hlt.symm⟩
  · rw [operandCell_of_text? ht, Cell.toValue, below?_of_text? ht rfl, below?_of_text? rfl ht,
      Cell.compare?_text, Option.any_some, Option.any_some]
    obtain ⟨-, hgt, hlt⟩ := accepts_compare s t
    exact ⟨congrArg some hgt.symm, congrArg some hlt.symm⟩

/-- A value of a column's kind is not read as another kind. -/
theorem coerce_of_takes (hx : a.admits x = true) (hnull : x ≠ .null) (hv : a.takes v = true) :
    v.coerce x.toValue = v := by
  unfold Value.coerce
  rcases admits_takes_cases hx hv with rfl | ⟨i, j, rfl, rfl⟩ | ⟨s, t, rfl, ht⟩
  · exact absurd rfl hnull
  · rfl
  · rw [ht]
    rfl

end

/-! ## Tests that agree -/

section

variable {E : Type}

/-- A restriction of a column and a predicate on the attribute at a path that have the same answer
wherever the column and the attribute have the same value. -/
def SameTest (ref : ColumnRef) (path : String) (r : Restriction E) (p : Predicate) : Prop :=
  ∀ (db : Database E) (row : JoinedRow) (item : Value),
    ref.column.affinity.admits (row.value ref) = true →
      item.resolve path = (row.value ref).toValue → p.holds item = .ok (r.holds db row)

/-- A restriction whose operands are bound as they are. -/
structure Restriction.IsBindable (r : Restriction E) : Prop where
  prepared : r.prepared = .ok r
  operands : ∀ v ∈ r.operands, bindParameter v = .ok (operandCell v)

variable {ref : ColumnRef} {path : String}

/-- Null is found by the test for null and by no other. -/
theorem sameTest_null : SameTest (E := E) ref path (.null ref false) (.equation path .null) := by
  intro db row item _ hitem
  show Predicate.meets (item.resolve path) .null = .ok ((row.value ref == .null) != false)
  rw [hitem]
  cases row.value ref <;> simp [Predicate.meets, Cell.toValue, Value.same, Value.sameScalar,
    Value.text?, Value.sameNumber, Value.number?]

theorem comparisonHolds_of_takes {row : JoinedRow} {op : ColumnOp} {v : Value}
    (hv : ref.column.affinity.takes v = true) :
    comparisonHolds row ref op (operandCell v) =
      ((row.value ref).compare? (operandCell v)).any op.accepts := by
  rw [comparisonHolds, convert_of_takes hv]

theorem meets_of_takes {a : Affinity} {v : Value} (hv : a.takes v = true) (actual : Value) :
    Predicate.meets actual v = .ok (actual.same v) := by
  rcases takes_cases hv with ⟨i, rfl⟩ | ⟨s, rfl⟩ | ⟨d, rfl⟩
  · rfl
  · rfl
  · rfl

theorem sameTest_equal {v : Value} (hv : ref.column.affinity.takes v = true) :
    SameTest (E := E) ref path (.compare ref .eq v) (.equation path v) := by
  intro db row item hx hitem
  show Predicate.meets (item.resolve path) v = .ok (comparisonHolds row ref .eq (operandCell v))
  rw [hitem, meets_of_takes hv, comparisonHolds_of_takes hv, toValue_same hx hv]

theorem inSet?_toValue {a : Affinity} {x : Cell} (hx : a.admits x = true) (items : List Value) :
    x.toValue.inSet? items = some (items.any (x.toValue.same ·)) := by
  rcases Affinity.admits_iff.mp hx with rfl | ⟨i, -, rfl⟩ | ⟨s, -, rfl⟩
  · rfl
  · rfl
  · rfl

/-- A list, a tuple and a set hold a value if one of their items equals it. -/
theorem sameTest_among {items : List Value} {expected : Value}
    (hexpected : expected = .list items ∨ expected = .tuple items ∨ expected = .set items)
    (hitems : ∀ v ∈ items, ref.column.affinity.takes v = true) :
    SameTest (E := E) ref path (.among ref items) (.equation path expected) := by
  intro db row item hx hitem
  have hany : (items.any fun v => comparisonHolds row ref .eq (operandCell v)) =
      items.any ((row.value ref).toValue.same ·) := by
    rw [Bool.eq_iff_iff, List.any_eq_true, List.any_eq_true]
    refine exists_congr fun v => and_congr_right fun hv => ?_
    rw [comparisonHolds_of_takes (hitems v hv), toValue_same hx (hitems v hv)]
  show Predicate.meets (item.resolve path) expected =
    .ok (items.any fun v => comparisonHolds row ref .eq (operandCell v))
  rw [hitem, hany]
  rcases hexpected with rfl | rfl | rfl
  · rfl
  · rfl
  · rw [Predicate.meets, inSet?_toValue hx]
    rfl

theorem isBindable_compare {op : ColumnOp} {v : Value} {a : Affinity} (hv : a.takes v = true) :
    (Restriction.compare ref op v : Restriction E).IsBindable where
  prepared := rfl
  operands w hw := by
    rw [Restriction.operands, List.mem_singleton] at hw
    subst hw
    exact bindParameter_of_takes hv

theorem parameterLike_of_takes {a : Affinity} {items : List Value}
    (hitems : ∀ v ∈ items, a.takes v = true) (v : Value) :
    parameterLike items.head? v = .ok v := by
  cases items with
  | nil => rfl
  | cons first rest =>
    rcases takes_cases (hitems first List.mem_cons_self) with ⟨i, rfl⟩ | ⟨s, rfl⟩ | ⟨d, rfl⟩
    · rfl
    · rfl
    · rfl

theorem isBindable_among {a : Affinity} {items : List Value}
    (hitems : ∀ v ∈ items, a.takes v = true) :
    (Restriction.among ref items : Restriction E).IsBindable where
  prepared := by
    rw [Restriction.prepared, mapM_eq_ok_map (g := id) fun v _ => parameterLike_of_takes hitems v,
      List.map_id]
    rfl
  operands v hv := bindParameter_of_takes (hitems v hv)

/-- **An equation with a value of the column's kind**, with null or with several values restricts
the column as it tests the attribute. -/
theorem restrictionFor_of_expects {expected : Value}
    (h : ref.column.affinity.expects expected = true) :
    ∃ r : Restriction E, restrictionFor (.column ref) expected = .ok r ∧
      SameTest ref path r (.equation path expected) ∧ r.IsBindable := by
  rcases Affinity.expects_iff.mp h with rfl | hv | ⟨items, hexpected, hitems⟩
  · refine ⟨.null ref false, rfl, sameTest_null, rfl, ?_⟩
    intro v hv
    cases hv
  · refine ⟨.compare ref .eq expected, ?_, sameTest_equal hv, isBindable_compare hv⟩
    rcases takes_cases hv with ⟨i, rfl⟩ | ⟨s, rfl⟩ | ⟨d, rfl⟩
    · rfl
    · rfl
    · rfl
  · refine ⟨.among ref items, ?_, sameTest_among hexpected hitems, isBindable_among hitems⟩
    rcases hexpected with rfl | rfl | rfl
    · rfl
    · rfl
    · rfl

/-! ## Bounds -/

/-- The operator that keeps a side. -/
def sideOperator : Side → ColumnOp
  | .above => .gt
  | .below => .lt

theorem boundOperator_of_read? {operator : Value} {side : Side}
    (h : Side.read? operator = some side) :
    boundOperator operator = .ok (sideOperator side) := by
  unfold Side.read? at h
  split at h
  · next hop =>
    cases h
    rw [boundOperator, hop]
    rfl
  · next hop =>
    cases h
    rw [boundOperator, hop]
    rfl
  · cases h

/-- Nothing lies beyond null, and a bound of the column's kind is not read as another. -/
theorem sameTest_beyond {name bound : Value} (hname : name.text? = some path) (side : Side)
    (hv : ref.column.affinity.takes bound = true) :
    SameTest (E := E) ref path (.compare ref (sideOperator side) bound)
      (.beyond name side bound) := by
  intro db row item hx hitem
  have hactual : attributeOf name item = .ok (row.value ref).toValue := by
    rw [attributeOf, Value.textFor_of_text? hname, ← hitem]
    rfl
  show _ = Except.ok (comparisonHolds row ref (sideOperator side) (operandCell bound))
  rw [Predicate.holds, hactual, comparisonHolds_of_takes hv]
  simp only [bind, Except.bind]
  by_cases hnull : row.value ref = .null
  · rw [hnull]
    rfl
  · have hpresent : (row.value ref).toValue.isNull = false := by
      cases hcell : row.value ref with
      | null => exact absurd hcell hnull
      | _ => rfl
    obtain ⟨habove, hbelow⟩ := below?_toValue hx hnull hv
    rw [hpresent, coerce_of_takes hx hnull hv]
    cases side with
    | above =>
      simp only [habove]
      rfl
    | below =>
      simp only [hbelow]
      rfl

/-- **A bound of the column's kind** restricts the column as it tests the attribute. -/
theorem comparisonFor_of_takes {name bound : Value} (hname : name.text? = some path) (side : Side)
    (hv : ref.column.affinity.takes bound = true) :
    ∃ r : Restriction E, comparisonFor (.column ref) (sideOperator side) bound = .ok r ∧
      SameTest ref path r (.beyond name side bound) ∧ r.IsBindable := by
  refine ⟨.compare ref (sideOperator side) bound, ?_, sameTest_beyond hname side hv,
    isBindable_compare hv⟩
  rcases takes_cases hv with ⟨i, rfl⟩ | ⟨s, rfl⟩ | ⟨d, rfl⟩ <;> cases side <;> rfl

end

end ResourceQuery.Sql
