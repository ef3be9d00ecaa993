import Mathlib.Data.List.Pairwise
import ResourceQuery.Collection.Memory
import ResourceQuery.Proofs.Sorting.Stable
import ResourceQuery.Proofs.Value.Circle

/-!
# Sort keys

Where a sort key stands next to another, absent keys last. Keys of which any two are the same, or
one before the other, stand in one line: since no three of them stand in a circle, nothing more has
to be asked of them. Keys that have an order do, and so do sets of which each holds the ones before
it.

Headlines:
* **`keyBelow?_eq`**: a key is below another exactly if it stands before it.
* **`Placed`**: two keys are the same or one comes before the other.
* **`InLine`**: keys of which any two are placed, transitively; **`inLine_of_placed`**: the second
  follows from the first.
* **`InLine.ranks`**, **`ranks_keyLe`**: keys in line are ranked, in both directions.
-/

namespace ResourceQuery

open Stable

/-! ## Keys -/

/-- Where a sort key stands next to another when ascending, absent keys last. -/
def keyPlace? (a b : Value) : Option Ordering :=
  match a.isNull, b.isNull with
  | true, true => some .eq
  | true, false => some .gt
  | false, true => some .lt
  | false, false => a.place? b

theorem keyBelow?_eq (a b : Value) : keyBelow? a b = (keyPlace? a b).map (· == .lt) := by
  unfold keyBelow? keyPlace?
  cases ha : a.isNull with
  | true => cases b.isNull <;> rfl
  | false =>
    cases hb : b.isNull with
    | true => rfl
    | false =>
      simp only [Bool.false_eq_true, if_false, Value.place?]
      by_cases h : a.same b = true
      · rw [if_pos h, if_pos h]
        rfl
      · rw [if_neg h, if_neg h]
        cases a.below? b with
        | none => rfl
        | some below => cases below <;> rfl

theorem keyPlace?_swap {a b : Value} {ab ba : Ordering} (ha : a.isRanked = true)
    (hb : b.isRanked = true) (hab : keyPlace? a b = some ab) (hba : keyPlace? b a = some ba) :
    ba = ab.swap := by
  unfold keyPlace? at hab hba
  cases hna : a.isNull <;> cases hnb : b.isNull <;> rw [hna, hnb] at hab hba
  · exact Value.place?_swap ha hb hab hba
  all_goals
    cases hab
    cases hba
    rfl

theorem keyLe_asc_iff {a b : Value} : keyLe .asc a b = true ↔ keyPlace? b a ≠ some .lt := by
  unfold keyLe
  rw [keyBelow?_eq]
  cases keyPlace? b a with
  | none => simp
  | some o => cases o <;> simp

theorem keyLe_desc (a b : Value) : keyLe .desc a b = keyLe .asc b a := rfl

/-- Two keys of which each has a place next to the other. -/
def Comparable (a b : Value) : Prop := (keyPlace? a b).isSome ∧ (keyPlace? b a).isSome

theorem Comparable.symm {a b : Value} (h : Comparable a b) : Comparable b a := ⟨h.2, h.1⟩

theorem allRanked_iff {keys : List Value} :
    Value.allRanked keys = true ↔ ∀ k ∈ keys, k.isRanked = true := by
  induction keys with
  | nil => simp [Value.allRanked]
  | cons k rest ih => rw [Value.allRanked, Bool.and_eq_true, ih, List.forall_mem_cons]

theorem keysCompare_iff {keys : List Value} :
    keysCompare keys = true ↔ keys.Pairwise Comparable := by
  induction keys with
  | nil => simp [keysCompare]
  | cons k rest ih =>
    rw [keysCompare, Bool.and_eq_true, ih, List.pairwise_cons, List.all_eq_true]
    refine and_congr (forall₂_congr fun other _ => ?_) Iff.rfl
    rw [keyBelow?_eq, keyBelow?_eq, Option.isSome_map, Option.isSome_map, Bool.and_eq_true]
    exact Iff.rfl

theorem haveOrder_iff {keys : List Value} :
    haveOrder keys = true ↔ (∀ k ∈ keys, k.isRanked = true) ∧ keys.Pairwise Comparable := by
  rw [haveOrder, Bool.and_eq_true, allRanked_iff, keysCompare_iff]

theorem haveOrder_perm {keys others : List Value} (hperm : keys.Perm others)
    (h : haveOrder keys = true) : haveOrder others = true := by
  rw [haveOrder_iff] at h ⊢
  exact ⟨fun k hk => h.1 k (hperm.mem_iff.mpr hk),
    (hperm.pairwise_iff fun hab => hab.symm).mp h.2⟩

/-- No key comes before itself. -/
theorem keyPlace?_self (a : Value) : keyPlace? a a ≠ some .lt := by
  unfold keyPlace? Value.place?
  have hself := Value.below?_self a
  cases a.isNull with
  | true => simp
  | false =>
    simp only
    split
    · simp
    · cases hbelow : a.below? a with
      | none => simp
      | some below => cases below <;> simp_all

/-! ## Keys in line -/

/-- Two keys are the same or one comes before the other, and both see it alike. -/
def Placed (a b : Value) : Prop := ∃ o, keyPlace? a b = some o ∧ keyPlace? b a = some o.swap

/-- Any two keys are placed, and what does not come after a key does not come after any that the
key does not come after. Absent keys come last. -/
structure InLine (keys : List Value) : Prop where
  placed : keys.Pairwise Placed
  trans : ∀ a ∈ keys, ∀ b ∈ keys, ∀ c ∈ keys,
    keyLe .asc a b = true → keyLe .asc b c = true → keyLe .asc a c = true

instance : Std.Symm Placed where
  symm a b := by
    rintro ⟨o, hab, hba⟩
    exact ⟨o.swap, hba, by rw [Ordering.swap_swap]; exact hab⟩

theorem Placed.comparable {a b : Value} (h : Placed a b) : Comparable a b := by
  obtain ⟨o, hab, hba⟩ := h
  exact ⟨by rw [hab]; rfl, by rw [hba]; rfl⟩

/-- Of two placed keys one does not come after the other, and if neither does they are the same. -/
theorem Placed.total {a b : Value} (h : Placed a b) :
    keyLe .asc a b = true ∨ keyLe .asc b a = true := by
  obtain ⟨o, hab, hba⟩ := h
  rw [keyLe_asc_iff, keyLe_asc_iff, hab, hba]
  cases o <;> simp

theorem same_of_keyPlace?_eq {a b : Value} (h : keyPlace? a b = some .eq) : a.same b = true := by
  unfold keyPlace? Value.place? at h
  cases ha : a.isNull <;> cases hb : b.isNull <;> rw [ha, hb] at h
  · by_contra hsame
    rw [if_neg hsame] at h
    cases hbelow : a.below? b with
    | none => simp [hbelow] at h
    | some below => cases below <;> simp [hbelow] at h
  · cases h
  · cases h
  · cases a <;> cases ha
    cases b <;> cases hb
    simp [Value.same]

theorem Placed.same {a b : Value} (h : Placed a b) (hab : keyLe .asc a b = true)
    (hba : keyLe .asc b a = true) : a.same b = true ∧ b.same a = true := by
  obtain ⟨o, hplace, hother⟩ := h
  rw [keyLe_asc_iff, hother] at hab
  rw [keyLe_asc_iff, hplace] at hba
  cases o with
  | lt => exact absurd rfl hba
  | eq => exact ⟨same_of_keyPlace?_eq hplace, same_of_keyPlace?_eq hother⟩
  | gt => exact absurd rfl hab

/-- Keys do not stand in a circle. -/
theorem keyPlace?_ne_lt {a b c : Value} {ab bc : Ordering} (hab : keyPlace? a b = some ab)
    (hbc : keyPlace? b c = some bc) (nab : ab ≠ .gt) (nbc : bc ≠ .gt) :
    keyPlace? c a ≠ some .lt := by
  unfold keyPlace? at hab hbc ⊢
  cases hna : a.isNull <;> cases hnb : b.isNull <;> cases hnc : c.isNull <;>
    rw [hna, hnb] at hab <;> rw [hnb, hnc] at hbc
  · exact Value.place?_ne_lt hab hbc nab nbc
  · exact nofun
  · cases hbc
    exact absurd rfl nbc
  · exact nofun
  · cases hab
    exact absurd rfl nab
  · exact nofun
  · cases hbc
    exact absurd rfl nbc
  · exact nofun

/-- **Keys of which any two are placed are in line.** -/
theorem inLine_of_placed {keys : List Value} (h : keys.Pairwise Placed) : InLine keys where
  placed := h
  trans a ha b hb c hc := by
    rw [keyLe_asc_iff, keyLe_asc_iff, keyLe_asc_iff]
    intro hba hcb
    by_cases hne : a = b
    · subst hne
      exact hcb
    by_cases hne' : b = c
    · subst hne'
      exact hba
    obtain ⟨ab, hab, hswap⟩ := h.forall ha hb hne
    obtain ⟨bc, hbc, hswap'⟩ := h.forall hb hc hne'
    refine keyPlace?_ne_lt hab hbc ?_ ?_
    · rintro rfl
      exact hba hswap
    · rintro rfl
      exact hcb hswap'

/-- Keys in line are ranked, in both directions. -/
theorem InLine.ranks {keys : List Value} (h : InLine keys) (d : Direction) :
    Ranks (keyLe d) keys := by
  have htotal : ∀ a ∈ keys, ∀ b ∈ keys, keyLe .asc a b = true ∨ keyLe .asc b a = true := by
    intro a ha b hb
    by_cases hne : a = b
    · subst hne
      exact .inl (keyLe_asc_iff.mpr (keyPlace?_self a))
    · exact (h.placed.forall ha hb hne).total
  cases d with
  | asc => exact ⟨htotal, h.trans⟩
  | desc =>
    exact ⟨fun a ha b hb => htotal b hb a ha,
      fun a ha b hb c hc hba hcb => h.trans c hc b hb a ha hcb hba⟩

/-- Keys that have an order are in line. -/
theorem inLine_of_haveOrder {keys : List Value} (h : haveOrder keys = true) : InLine keys := by
  obtain ⟨hranked, hcompare⟩ := haveOrder_iff.mp h
  refine inLine_of_placed (hcompare.imp_of_mem fun {a b} ha hb hab => ?_)
  obtain ⟨o, ho⟩ := Option.isSome_iff_exists.mp hab.1
  obtain ⟨o', ho'⟩ := Option.isSome_iff_exists.mp hab.2
  exact ⟨o, ho, by rw [ho', keyPlace?_swap (hranked a ha) (hranked b hb) ho ho']⟩

/-- **Keys that have an order are ranked**, in both directions. -/
theorem ranks_keyLe {keys : List Value} (h : haveOrder keys = true) (d : Direction) :
    Ranks (keyLe d) keys := (inLine_of_haveOrder h).ranks d

end ResourceQuery
