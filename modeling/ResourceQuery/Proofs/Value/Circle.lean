import ResourceQuery.Proofs.Value.Comparison

/-!
# Values do not stand in a circle

Values of some kinds compare without having an order: a set is below the sets that hold all its
items and more, and NaN is below nothing and above nothing. Even so three values never stand in a
circle, so that values of which any two compare in the strict sense are ranked without more being
asked of them.

Headlines:
* **`Value.exists_set_of_place?`**, **`exists_text_of_place?`**, **`exists_point_of_place?`**: what
  a value that is not above another one has in common with it.
* **`Value.place?_ne_lt`**: of three values in a row the last is not below the first.
-/

namespace ResourceQuery.Value

open Number

theorem le_of_compares {α : Type} [LinearOrder α] {p q : α} {o : Ordering} (h : o.Compares p q)
    (ho : o ≠ .gt) : p ≤ q := by
  cases o with
  | lt => exact le_of_lt h
  | eq => exact le_of_eq h
  | gt => exact absurd rfl ho

/-! ## Values of one kind -/

/-- A list compares with lists only. -/
theorem exists_list_of_place? {xs : List Value} {b : Value} {o : Ordering}
    (h : place? (.list xs) b = some o) : ∃ ys, b = .list ys ∧ placeItems? xs ys = some o := by
  cases b with
  | list ys => exact ⟨ys, rfl, by rw [← place?_list]; exact h⟩
  | _ => simp [place?, same, below?, sameScalar, sameNumber, belowScalar?, belowNumber?, text?,
      textPoints?, number?] at h

/-- A tuple compares with tuples only. -/
theorem exists_tuple_of_place? {xs : List Value} {b : Value} {o : Ordering}
    (h : place? (.tuple xs) b = some o) : ∃ ys, b = .tuple ys ∧ placeItems? xs ys = some o := by
  cases b with
  | tuple ys => exact ⟨ys, rfl, by rw [← place?_tuple]; exact h⟩
  | _ => simp [place?, same, below?, sameScalar, sameNumber, belowScalar?, belowNumber?, text?,
      textPoints?, number?] at h

/-- A set compares with sets only, and has no more items than one that it is not above. -/
theorem exists_set_of_place? {xs : List Value} {b : Value} {o : Ordering}
    (h : place? (.set xs) b = some o) (ho : o ≠ .gt) :
    ∃ ys, b = .set ys ∧ o.Compares xs.length ys.length := by
  cases b with
  | set ys =>
    refine ⟨ys, rfl, ?_⟩
    rw [place?, same, below?] at h
    split at h
    · next hsame =>
      cases h
      simp only [Bool.and_eq_true, beq_iff_eq] at hsame
      exact hsame.1
    · rw [Option.map_some] at h
      split at h
      · next hbelow =>
        cases h
        simp only [Bool.and_eq_true, decide_eq_true_eq] at hbelow
        exact hbelow.1
      · cases h
        exact absurd rfl ho
  | _ => simp [place?, same, below?, sameScalar, sameNumber, belowScalar?, belowNumber?, text?,
      textPoints?, number?] at h

/-- A text compares with texts only. -/
theorem exists_text_of_place? {a b : Value} {s : List ℕ} {o : Ordering}
    (hs : a.textPoints? = some s) (h : place? a b = some o) :
    ∃ t, b.textPoints? = some t ∧ o.Compares s t := by
  obtain ⟨t, ht⟩ := exists_points_of_place? hs h
  exact ⟨t, ht, compares_of_place? hs ht h⟩

/-- A number compares with numbers only, and neither of two is NaN if the first is not above the
second. -/
theorem exists_point_of_place? {a b : Value} {o : Ordering} (hx : a.number?.isSome)
    (h : place? a b = some o) (ho : o ≠ .gt) :
    ∃ p q, a.point? = some p ∧ b.point? = some q ∧ o.Compares p q := by
  have hscalar := compares_as_scalar hx b
  obtain ⟨x, hx⟩ := Option.isSome_iff_exists.mp hx
  rw [place?, hscalar.1, hscalar.2] at h
  cases hy : b.number? with
  | none => simp [sameNumber, belowNumber?, hx, hy] at h
  | some y =>
    cases hxy : x.compare? y with
    | none =>
      simp [sameNumber, belowNumber?, hx, hy, hxy] at h
      exact absurd h.symm ho
    | some o' =>
      obtain ⟨p, q, hp, hq, hpq⟩ := Binary64.compares_of_compare? hxy
      have heq : o' = o := by
        simp only [sameNumber, belowNumber?, hx, hy, hxy, bind, Option.bind, pure] at h
        cases o' <;> simpa using h
      subst heq
      exact ⟨p, q, by simp [point?, hx, hp], by simp [point?, hy, hq], hpq⟩

theorem isSome_number?_of_point? {a : Value} {p : WithBot (WithTop ℚ)} (h : a.point? = some p) :
    a.number?.isSome := by
  unfold point? at h
  cases hx : a.number? with
  | none => simp [hx] at h
  | some x => rfl

/-! ## No circle -/

/-- What the first items of two lists decide of which the first is not above the second. -/
theorem placeItems?_cons_of_ne_gt {x y : Value} {xs ys : List Value} {o : Ordering}
    (h : placeItems? (x :: xs) (y :: ys) = some o) (ho : o ≠ .gt) :
    ∃ first, place? x y = some first ∧ first ≠ .gt ∧
      (first ≠ .lt → placeItems? xs ys = some o) := by
  rcases placeItems?_cons h with ⟨heq, hrest⟩ | ⟨hfirst, hne⟩
  · exact ⟨.eq, heq, nofun, fun _ => hrest⟩
  · refine ⟨o, hfirst, ho, fun hlt => ?_⟩
    cases o with
    | lt => exact absurd rfl hlt
    | eq => exact absurd rfl hne
    | gt => exact absurd rfl ho

mutual

/-- **No circle**: if of three values the first is not above the second and the second not above
the last, then the last is not below the first. -/
theorem place?_ne_lt {a b c : Value} {ab bc : Ordering} (hab : place? a b = some ab)
    (hbc : place? b c = some bc) (nab : ab ≠ .gt) (nbc : bc ≠ .gt) : place? c a ≠ some .lt := by
  intro hca
  cases a with
  | list xs =>
    obtain ⟨ys, rfl, hxy⟩ := exists_list_of_place? hab
    obtain ⟨zs, rfl, hyz⟩ := exists_list_of_place? hbc
    obtain ⟨_, ⟨⟩, hzx⟩ := exists_list_of_place? hca
    exact placeItems?_ne_lt hxy hyz nab nbc hzx
  | tuple xs =>
    obtain ⟨ys, rfl, hxy⟩ := exists_tuple_of_place? hab
    obtain ⟨zs, rfl, hyz⟩ := exists_tuple_of_place? hbc
    obtain ⟨_, ⟨⟩, hzx⟩ := exists_tuple_of_place? hca
    exact placeItems?_ne_lt hxy hyz nab nbc hzx
  | set xs =>
    -- sets that go on in this way have more and more items
    obtain ⟨ys, rfl, hxy⟩ := exists_set_of_place? hab nab
    obtain ⟨zs, rfl, hyz⟩ := exists_set_of_place? hbc nbc
    obtain ⟨_, ⟨⟩, hzx⟩ := exists_set_of_place? hca nofun
    exact absurd hzx (not_lt_of_ge ((le_of_compares hxy nab).trans (le_of_compares hyz nbc)))
  | null | map | record =>
    -- nothing is below these
    cases c <;> simp [place?, same, below?, sameScalar, sameNumber, belowScalar?, belowNumber?,
      text?, textPoints?, number?] at hca
  | str | direction | loose =>
    obtain ⟨t, ht, hst⟩ := exists_text_of_place? rfl hab
    obtain ⟨u, hu, htu⟩ := exists_text_of_place? ht hbc
    obtain ⟨s, ⟨⟩, hus⟩ := exists_text_of_place? hu hca
    exact absurd hus (not_lt_of_ge ((le_of_compares hst nab).trans (le_of_compares htu nbc)))
  | bool | int | float =>
    obtain ⟨p, q, hp, hq, hpq⟩ := exists_point_of_place? rfl hab nab
    obtain ⟨q', r, hq', hr, hqr⟩ := exists_point_of_place? (isSome_number?_of_point? hq) hbc nbc
    obtain ⟨r', p', hr', hp', hrp⟩ :=
      exists_point_of_place? (isSome_number?_of_point? hr) hca nofun
    cases hp.symm.trans hp'
    cases hq.symm.trans hq'
    cases hr.symm.trans hr'
    exact absurd hrp (not_lt_of_ge ((le_of_compares hpq nab).trans (le_of_compares hqr nbc)))
termination_by sizeOf a + sizeOf b + sizeOf c

theorem placeItems?_ne_lt {xs ys zs : List Value} {ab bc : Ordering}
    (hab : placeItems? xs ys = some ab) (hbc : placeItems? ys zs = some bc) (nab : ab ≠ .gt)
    (nbc : bc ≠ .gt) : placeItems? zs xs ≠ some .lt := by
  intro hca
  cases xs with
  | nil => cases zs <;> cases hca
  | cons x xs =>
    cases ys with
    | nil =>
      cases hab
      exact absurd rfl nab
    | cons y ys =>
      cases zs with
      | nil =>
        cases hbc
        exact absurd rfl nbc
      | cons z zs =>
        obtain ⟨xy, hxy, nxy, hab⟩ := placeItems?_cons_of_ne_gt hab nab
        obtain ⟨yz, hyz, nyz, hbc⟩ := placeItems?_cons_of_ne_gt hbc nbc
        obtain ⟨zx, hzx, nzx, hca⟩ := placeItems?_cons_of_ne_gt hca nofun
        -- the first items would stand in a circle themselves unless all of them tie
        have hxy' : xy ≠ .lt := fun h => place?_ne_lt hyz hzx nyz nzx (h ▸ hxy)
        have hyz' : yz ≠ .lt := fun h => place?_ne_lt hzx hxy nzx nxy (h ▸ hyz)
        have hzx' : zx ≠ .lt := fun h => place?_ne_lt hxy hyz nxy nyz (h ▸ hzx)
        exact placeItems?_ne_lt (hab hxy') (hbc hyz') nab nbc (hca hzx')
termination_by sizeOf xs + sizeOf ys + sizeOf zs

end

end ResourceQuery.Value
