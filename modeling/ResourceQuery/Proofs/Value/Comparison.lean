import Mathlib.Algebra.Order.Field.Rat
import Mathlib.Algebra.Order.Field.Power
import Mathlib.Data.String.Basic
import Mathlib.Order.WithBot
import Mathlib.Tactic.Positivity
import ResourceQuery.Proofs.Value.Lookup
import ResourceQuery.Value.Order

/-!
# Where values stand next to each other

Values compare in part: numbers with numbers, texts with texts, lists with lists place by place.
Where they compare, and no sets or NaN are among them, two values see each other alike, like those
of a ranking.

Headlines:
* **`Number.Binary64.compares_of_compare?`**: doubles compare like the exact numbers that they are.
* **`Value.place?`**: where a value stands next to another, if the two compare.
* **`Value.place?_swap`**: seen from the other one the place is turned round.
-/

namespace ResourceQuery

namespace Number.Binary64

/-- The exact number that a double is, between two infinities; NaN is none. -/
def point? : Binary64 → Option (WithBot (WithTop ℚ))
  | .nan => none
  | .infinite true => some ⊥
  | .infinite false => some ((⊤ : WithTop ℚ) : WithBot (WithTop ℚ))
  | .finite negative m e => some (((signed negative m : ℚ) * 2 ^ e : ℚ) : WithTop ℚ)

theorem compareScaled_compares (a d b e : Int) :
    (compareScaled a d b e).Compares ((a : ℚ) * 2 ^ d) ((b : ℚ) * 2 ^ e) := by
  have hscale (x y : Int) (h : min d e ≤ y) :
      (x : ℚ) * 2 ^ y = ((x * 2 ^ (y - min d e).toNat : Int) : ℚ) * 2 ^ min d e := by
    have hsum : y = ((y - min d e).toNat : Int) + min d e := by omega
    rw [Int.cast_mul, Int.cast_pow, Int.cast_ofNat, mul_assoc]
    conv_lhs => rw [hsum]
    rw [zpow_add₀ (by norm_num), zpow_natCast]
  have hpos : (0 : ℚ) < 2 ^ min d e := by positivity
  rw [hscale a d (min_le_left d e), hscale b e (min_le_right d e)]
  unfold compareScaled
  simp only
  generalize a * 2 ^ (d - min d e).toNat = p
  generalize b * 2 ^ (e - min d e).toNat = q
  rcases lt_trichotomy p q with h | h | h
  · rw [Int.compare_eq_lt.mpr h]
    exact mul_lt_mul_of_pos_right (Int.cast_lt.mpr h) hpos
  · rw [h, Int.compare_eq_eq.mpr rfl]
    exact rfl
  · rw [Int.compare_eq_gt.mpr h]
    exact mul_lt_mul_of_pos_right (Int.cast_lt.mpr h) hpos

theorem compares_coe {p q : ℚ} {o : Ordering} (h : o.Compares p q) :
    o.Compares ((p : WithTop ℚ) : WithBot (WithTop ℚ)) (q : WithTop ℚ) := by
  cases o with
  | lt => exact WithBot.coe_lt_coe.mpr (WithTop.coe_lt_coe.mpr h)
  | eq => exact congrArg (fun r : ℚ => ((r : WithTop ℚ) : WithBot (WithTop ℚ))) h
  | gt => exact WithBot.coe_lt_coe.mpr (WithTop.coe_lt_coe.mpr h)

/-- **Doubles compare like exact numbers.** -/
theorem compares_of_compare? {x y : Binary64} {o : Ordering} (h : x.compare? y = some o) :
    ∃ p q, x.point? = some p ∧ y.point? = some q ∧ o.Compares p q := by
  cases x with
  | nan => cases h
  | infinite a =>
    cases y with
    | nan => cases h
    | infinite b =>
      cases a <;> cases b <;> cases h
      · exact ⟨_, _, rfl, rfl, rfl⟩
      · exact ⟨_, _, rfl, rfl, WithBot.bot_lt_coe _⟩
      · exact ⟨_, _, rfl, rfl, WithBot.bot_lt_coe _⟩
      · exact ⟨_, _, rfl, rfl, rfl⟩
    | finite b n e =>
      cases a <;> cases h
      · exact ⟨_, _, rfl, rfl, WithBot.coe_lt_coe.mpr (WithTop.coe_lt_top _)⟩
      · exact ⟨_, _, rfl, rfl, WithBot.bot_lt_coe _⟩
  | finite a m d =>
    cases y with
    | nan => cases h
    | infinite b =>
      cases b <;> cases h
      · exact ⟨_, _, rfl, rfl, WithBot.coe_lt_coe.mpr (WithTop.coe_lt_top _)⟩
      · exact ⟨_, _, rfl, rfl, WithBot.bot_lt_coe _⟩
    | finite b n e =>
      cases h
      exact ⟨_, _, rfl, rfl, compares_coe (compareScaled_compares _ d _ e)⟩

end Number.Binary64

namespace Value

open Number

/-! ## Places -/

/-- Where a value stands next to another one, nothing if the two do not compare. -/
def place? (a b : Value) : Option Ordering :=
  if a.same b then some .eq else (a.below? b).map fun below => if below then .lt else .gt

/-- Where a list stands next to another: the first place where they differ decides. -/
def placeItems? : List Value → List Value → Option Ordering
  | [], [] => some .eq
  | [], _ :: _ => some .lt
  | _ :: _, [] => some .gt
  | x :: xs, y :: ys =>
    match place? x y with
    | some .eq => placeItems? xs ys
    | other => other

theorem place?_items_eq (xs ys : List Value) :
    (if sameItems xs ys then some Ordering.eq
      else (belowItems? xs ys).map fun below => if below then .lt else .gt) =
      placeItems? xs ys := by
  induction xs generalizing ys with
  | nil => cases ys <;> simp [sameItems, belowItems?, placeItems?]
  | cons x xs ih =>
    cases ys with
    | nil => simp [sameItems, belowItems?, placeItems?]
    | cons y ys =>
      rw [sameItems, belowItems?, placeItems?, place?]
      by_cases h : same x y = true
      · rw [if_pos h, h, Bool.true_and, if_pos rfl]
        exact ih ys
      · rw [if_neg h, Bool.eq_false_iff.mpr h, Bool.false_and, if_neg Bool.false_ne_true]
        cases below? x y with
        | none => rfl
        | some below => cases below <;> rfl

theorem place?_list (xs ys : List Value) : place? (.list xs) (.list ys) = placeItems? xs ys := by
  rw [← place?_items_eq, place?, same, below?]

theorem place?_tuple (xs ys : List Value) :
    place? (.tuple xs) (.tuple ys) = placeItems? xs ys := by
  rw [← place?_items_eq, place?, same, below?]

/-! ## Values beside themselves -/

theorem compare?_self_ne_lt (x : Binary64) : x.compare? x ≠ some .lt := by
  intro h
  obtain ⟨p, q, hp, hq, hpq⟩ := Binary64.compares_of_compare? h
  cases hp.symm.trans hq
  exact lt_irrefl p hpq

theorem belowScalar?_self (v : Value) : belowScalar? v v ≠ some true := by
  unfold belowScalar? belowNumber?
  cases htext : v.text? with
  | some s => simp
  | none =>
    cases hnumber : v.number? with
    | none => simp
    | some x => simpa using compare?_self_ne_lt x

mutual

/-- No value is below itself. -/
theorem below?_self : ∀ v : Value, below? v v ≠ some true
  | .list items | .tuple items => by
    rw [below?]
    exact belowItems?_self items
  | .set items => by simp [below?]
  | .loose t => by simp [below?, textPoints?]
  | .null | .bool _ | .int _ | .float _ | .str _ | .direction _ | .map _ | .record _ => by
    simpa [below?] using belowScalar?_self _

theorem belowItems?_self : ∀ items : List Value, belowItems? items items ≠ some true
  | [] => by simp [belowItems?]
  | item :: items => by
    rw [belowItems?]
    split
    · exact belowItems?_self items
    · exact below?_self item

end

/-! ## What values that compare have in common -/

/-- The exact number of a value that is one. -/
def point? (v : Value) : Option (WithBot (WithTop ℚ)) := v.number?.bind Binary64.point?

/-- Two values of one kind, and the place of the first next to the second. -/
inductive Alike : Value → Value → Ordering → Prop
  | number {a b : Value} {p q : WithBot (WithTop ℚ)} {o : Ordering} (ha : a.point? = some p)
      (hb : b.point? = some q) (h : o.Compares p q) : Alike a b o
  | text {a b : Value} {s t : List ℕ} {o : Ordering} (ha : a.textPoints? = some s)
      (hb : b.textPoints? = some t) (h : o.Compares s t) : Alike a b o
  | list {xs ys : List Value} {o : Ordering} (h : placeItems? xs ys = some o) :
      Alike (.list xs) (.list ys) o
  | tuple {xs ys : List Value} {o : Ordering} (h : placeItems? xs ys = some o) :
      Alike (.tuple xs) (.tuple ys) o
  | null : Alike .null .null .eq
  | map {es fs : List (Value × Value)} : Alike (.map es) (.map fs) .eq
  | record {es fs : List (String × Value)} : Alike (.record es) (.record fs) .eq

theorem compare?_isSome {x y : Binary64} (hx : x ≠ .nan) (hy : y ≠ .nan) :
    ∃ o, x.compare? y = some o := by
  cases x <;> cases y <;> simp_all [Binary64.compare?]

theorem number?_ne_nan {a : Value} {x : Binary64} (ha : a.isRanked = true)
    (hx : a.number? = some x) : x ≠ .nan := by
  rintro rfl
  cases a with
  | float x =>
    cases hx
    exact absurd ha (by simp [isRanked])
  | _ => cases hx

theorem alike_of_numbers {a b : Value} {x y : Binary64} {o : Ordering}
    (ha : a.isRanked = true) (hb : b.isRanked = true) (hx : a.number? = some x)
    (hy : b.number? = some y)
    (h : (if sameNumber a b then some Ordering.eq
      else (belowNumber? a b).map fun below => if below then .lt else .gt) = some o) :
    Alike a b o := by
  obtain ⟨o', ho'⟩ := compare?_isSome (number?_ne_nan ha hx) (number?_ne_nan hb hy)
  obtain ⟨p, q, hp, hq, hpq⟩ := Binary64.compares_of_compare? ho'
  have heq : o' = o := by
    simp only [sameNumber, belowNumber?, hx, hy, ho', bind, Option.bind, pure] at h
    cases o' <;> simpa using h
  subst heq
  exact .number (by simp [point?, hx, hp]) (by simp [point?, hy, hq]) hpq

/-! ### Texts -/

theorem pointsOf_injective {s t : String} (h : pointsOf s = pointsOf t) : s = t :=
  String.toList_inj.mp (List.map_injective_iff.mpr (fun _ _ => Char.toNat_inj.mp) h)

theorem map_toNat_lt_iff (cs ds : List Char) :
    cs.map Char.toNat < ds.map Char.toNat ↔ cs < ds := by
  induction cs generalizing ds with
  | nil => cases ds <;> simp
  | cons c cs ih =>
    cases ds with
    | nil => simp
    | cons d ds =>
      rw [List.map_cons, List.map_cons, List.cons_lt_cons_iff, List.cons_lt_cons_iff, ih,
        Char.toNat_inj]
      exact Iff.rfl

/-- Texts are in the order of their code points. -/
theorem pointsOf_lt_iff (s t : String) : pointsOf s < pointsOf t ↔ s < t := by
  rw [String.lt_iff_toList_lt, pointsOf, pointsOf, map_toNat_lt_iff]

/-- No `String` has the code points of a text with surrogates on their own. -/
theorem pointsOf_ne_points (s : String) (t : LooseText) : pointsOf s ≠ t.points := by
  intro h
  have hnone := LooseText.ofPoints?_pointsOf s
  rw [h, LooseText.ofPoints?, dif_pos ⟨t.inRange, t.isLoose⟩] at hnone
  cases hnone

theorem exists_of_textPoints? {v : Value} {s : List ℕ} (h : v.textPoints? = some s) :
    (∃ u, v.text? = some u ∧ s = pointsOf u) ∨ ∃ t, v = .loose t ∧ s = t.points := by
  cases v <;> simp_all [textPoints?, text?]

theorem same_of_textPoints? {a b : Value} {s t : List ℕ} (hs : a.textPoints? = some s)
    (ht : b.textPoints? = some t) : a.same b = decide (s = t) := by
  rcases exists_of_textPoints? hs with ⟨u, hu, rfl⟩ | ⟨u, rfl, rfl⟩ <;>
    rcases exists_of_textPoints? ht with ⟨w, hw, rfl⟩ | ⟨w, rfl, rfl⟩
  · rw [same_of_text? hu hw, decide_eq_decide]
    exact ⟨congrArg pointsOf, pointsOf_injective⟩
  · rw [decide_eq_false (pointsOf_ne_points u w)]
    rcases exists_of_text? hu with rfl | ⟨d, rfl, -⟩ <;>
      simp [same, sameScalar, text?, sameNumber, number?]
  · rw [decide_eq_false (pointsOf_ne_points w u).symm]
    rcases exists_of_text? hw with rfl | ⟨d, rfl, -⟩ <;>
      simp [same, sameScalar, text?, sameNumber, number?]
  · rw [same, beq_eq_decide, decide_eq_decide]
    exact LooseText.ext_iff

theorem below?_of_textPoints? {a b : Value} {s t : List ℕ} (hs : a.textPoints? = some s)
    (ht : b.textPoints? = some t) : a.below? b = some (decide (s < t)) := by
  rcases exists_of_textPoints? hs with ⟨u, hu, rfl⟩ | ⟨u, rfl, rfl⟩
  · rcases exists_of_textPoints? ht with ⟨w, hw, rfl⟩ | ⟨w, rfl, rfl⟩
    · rw [decide_eq_decide.mpr (pointsOf_lt_iff u w)]
      rcases exists_of_text? hu with rfl | ⟨d, rfl, rfl⟩ <;>
        rcases exists_of_text? hw with rfl | ⟨e, rfl, rfl⟩ <;>
        rw [below?] <;> first | rfl | nofun
    · rcases exists_of_text? hu with rfl | ⟨d, rfl, rfl⟩ <;>
        rw [below?, hs] <;> first | rfl | nofun
  · rw [below?, ht]
    rfl

/-- A text compares with texts only. -/
theorem exists_points_of_place? {a b : Value} {s : List ℕ} {o : Ordering}
    (hs : a.textPoints? = some s) (h : place? a b = some o) : ∃ t, b.textPoints? = some t := by
  rw [place?] at h
  rcases exists_of_textPoints? hs with ⟨u, hu, -⟩ | ⟨u, rfl, -⟩
  · rcases exists_of_text? hu with rfl | ⟨d, rfl, -⟩ <;>
      cases b <;> simp_all [textPoints?, same, below?, sameScalar, sameNumber, belowScalar?,
        belowNumber?, text?, number?]
  · cases b <;> simp_all [textPoints?, same, below?, sameScalar, sameNumber, text?, number?]

theorem compares_of_place? {a b : Value} {s t : List ℕ} {o : Ordering}
    (hs : a.textPoints? = some s) (ht : b.textPoints? = some t) (h : place? a b = some o) :
    o.Compares s t := by
  rw [place?, same_of_textPoints? hs ht, below?_of_textPoints? hs ht] at h
  rcases lt_trichotomy s t with hlt | heq | hgt
  · simp only [ne_of_lt hlt, hlt, decide_false, decide_true, Option.map_some, if_true,
      Bool.false_eq_true, if_false, Option.some.injEq] at h
    subst h
    exact hlt
  · simp only [heq, decide_true, if_true, Option.some.injEq] at h
    subst h
    exact heq
  · simp only [ne_of_gt hgt, not_lt_of_gt hgt, decide_false, Option.map_some,
      Bool.false_eq_true, if_false, Option.some.injEq] at h
    subst h
    exact hgt

/-! ### All kinds -/

/-- Numbers are compared as such with any value. -/
theorem compares_as_scalar {a : Value} (ha : a.number?.isSome) (b : Value) :
    same a b = sameNumber a b ∧ below? a b = belowNumber? a b := by
  cases a <;> simp [number?] at ha <;> cases b <;>
    simp [same, below?, sameScalar, belowScalar?, text?, textPoints?, belowNumber?, number?]

theorem alike_of_number {a b : Value} {o : Ordering} (hs : a.number?.isSome)
    (ha : a.isRanked = true) (hb : b.isRanked = true) (h : place? a b = some o) : Alike a b o := by
  rw [place?, (compares_as_scalar hs b).1, (compares_as_scalar hs b).2] at h
  obtain ⟨x, hx⟩ := Option.isSome_iff_exists.mp hs
  cases hy : b.number? with
  | none => simp [sameNumber, belowNumber?, hx, hy] at h
  | some y => exact alike_of_numbers ha hb hx hy h

theorem alike_of_text {a b : Value} {s : List ℕ} {o : Ordering} (hs : a.textPoints? = some s)
    (h : place? a b = some o) : Alike a b o := by
  obtain ⟨t, ht⟩ := exists_points_of_place? hs h
  exact .text hs ht (compares_of_place? hs ht h)

theorem alike_of_place? {a b : Value} {o : Ordering} (ha : a.isRanked = true)
    (hb : b.isRanked = true) (h : place? a b = some o) : Alike a b o := by
  unfold place? at h
  cases a with
  | null =>
    cases b <;> simp [same, below?, sameScalar, sameNumber, belowScalar?, belowNumber?, text?,
      textPoints?, number?] at h
    exact h ▸ .null
  | map es =>
    cases b <;> simp [same, below?, sameScalar, sameNumber, belowScalar?, belowNumber?, text?,
      textPoints?, number?] at h
    exact h.2 ▸ .map
  | record es =>
    cases b <;> simp [same, below?, sameScalar, sameNumber, belowScalar?, belowNumber?, text?,
      textPoints?, number?] at h
    exact h.2 ▸ .record
  | set xs => exact absurd ha (by simp [isRanked])
  | list xs =>
    cases b with
    | list ys => exact .list (by rw [← place?_list]; exact h)
    | _ => simp [same, below?, sameScalar, sameNumber, belowScalar?, belowNumber?, text?,
        textPoints?, number?] at h
  | tuple xs =>
    cases b with
    | tuple ys => exact .tuple (by rw [← place?_tuple]; exact h)
    | _ => simp [same, below?, sameScalar, sameNumber, belowScalar?, belowNumber?, text?,
        textPoints?, number?] at h
  | str | direction | loose => exact alike_of_text rfl h
  | bool | int | float => exact alike_of_number rfl ha hb h

/-! ## Both ways -/

theorem isRanked_of_allRanked {x : Value} {xs : List Value} (h : allRanked (x :: xs) = true) :
    x.isRanked = true ∧ allRanked xs = true := by
  rw [allRanked, Bool.and_eq_true] at h
  exact h

/-- What decides the place of a list with a first item. -/
theorem placeItems?_cons {x y : Value} {xs ys : List Value} {o : Ordering}
    (h : placeItems? (x :: xs) (y :: ys) = some o) :
    (place? x y = some .eq ∧ placeItems? xs ys = some o) ∨ (place? x y = some o ∧ o ≠ .eq) := by
  rw [placeItems?] at h
  split at h
  · next heq => exact Or.inl ⟨heq, h⟩
  · next hne =>
    refine Or.inr ⟨h, ?_⟩
    rintro rfl
    exact hne h

theorem point?_eq_none_of_text? {a : Value} {s : List ℕ} (h : a.textPoints? = some s) :
    a.point? = none := by
  cases a <;> simp_all [textPoints?, text?, point?, number?]

theorem swap_of_compares {α : Type} [LinearOrder α] {p q : α} {ab ba : Ordering}
    (hab : ab.Compares p q) (hba : ba.Compares q p) : ba = ab.swap :=
  hba.inj (Ordering.compares_swap.mpr hab)

mutual

/-- **Seen from the other value a place is turned round.** -/
theorem place?_swap {a b : Value} {ab ba : Ordering} (ha : a.isRanked = true)
    (hb : b.isRanked = true) (hab : place? a b = some ab) (hba : place? b a = some ba) :
    ba = ab.swap := by
  have hba' := alike_of_place? hb ha hba
  cases alike_of_place? ha hb hab with
  | number hp hq h =>
    cases hba' with
    | number hq' hp' h' =>
      cases hp.symm.trans hp'
      cases hq.symm.trans hq'
      exact swap_of_compares h h'
    | text ht hs h' => exact absurd hp (by rw [point?_eq_none_of_text? hs]; exact nofun)
    | _ => cases hp
  | text hs ht h =>
    cases hba' with
    | number hq hp h' => exact absurd hp (by rw [point?_eq_none_of_text? hs]; exact nofun)
    | text ht' hs' h' =>
      cases hs.symm.trans hs'
      cases ht.symm.trans ht'
      exact swap_of_compares h h'
    | _ => cases hs
  | list h =>
    rw [isRanked] at ha hb
    rw [place?_list] at hba
    exact placeItems?_swap ha hb h hba
  | tuple h =>
    rw [isRanked] at ha hb
    rw [place?_tuple] at hba
    exact placeItems?_swap ha hb h hba
  | null =>
    cases hba' with
    | number hq hp h' => cases hp
    | text ht hs h' => cases hs
    | null => rfl
  | map =>
    cases hba' with
    | number hq hp h' => cases hp
    | text ht hs h' => cases hs
    | map => rfl
  | record =>
    cases hba' with
    | number hq hp h' => cases hp
    | text ht hs h' => cases hs
    | record => rfl
termination_by sizeOf a

theorem placeItems?_swap {xs ys : List Value} {ab ba : Ordering} (hx : allRanked xs = true)
    (hy : allRanked ys = true) (hab : placeItems? xs ys = some ab)
    (hba : placeItems? ys xs = some ba) : ba = ab.swap := by
  cases xs with
  | nil =>
    cases ys with
    | nil =>
      cases hab
      cases hba
      rfl
    | cons y ys =>
      cases hab
      cases hba
      rfl
  | cons x xs =>
    cases ys with
    | nil =>
      cases hab
      cases hba
      rfl
    | cons y ys =>
      obtain ⟨hxr, hxs⟩ := isRanked_of_allRanked hx
      obtain ⟨hyr, hys⟩ := isRanked_of_allRanked hy
      rcases placeItems?_cons hab with ⟨heq, hab⟩ | ⟨hfirst, hne⟩
      · rcases placeItems?_cons hba with ⟨-, hba⟩ | ⟨hother, hne⟩
        · exact placeItems?_swap hxs hys hab hba
        · exact absurd (place?_swap hxr hyr heq hother) hne
      · rcases placeItems?_cons hba with ⟨hother, -⟩ | ⟨hother, -⟩
        · have := place?_swap hxr hyr hfirst hother
          cases ab <;> cases this
          exact absurd rfl hne
        · exact place?_swap hxr hyr hfirst hother
termination_by sizeOf xs

end

end Value

end ResourceQuery
