import Mathlib.Data.List.Sort

/-!
# Stable sorting by several orders

A merge sort is stable: items of which neither has to come first keep their places. Sorting a
list by one order and the result by another is therefore a single sort by the second order, in
which the first one breaks ties. Nothing is asked of an order beyond the items of the list, since
values compare with their like only.

Headlines:
* **`Ranks`**: any two items of a list are ordered, transitively.
* **`thenLe`**: an order with another one to break its ties; **`Ranks.thenLe`** ranks too.
* **`Ranks.pairwise_of_stable`**: of two items that change places by a sort, the order requires it.
* **`Ranks.eq_mergeSort_of_placed`**: an arrangement in order that leaves ties as they stood is the
  sort; **`Ranks.mergeSort_eq_of_places`**: the same for the places that its items come from.
* **`Ranks.mergeSort_mergeSort`**: two sorts are one by the combined order.
* **`Ranks.eq_mergeSort`**: where no two items tie, there is only one arrangement in order.
* **`Ranks.head?_mergeSort_eq_iff`**: when a sort leaves the first item where it is.
-/

namespace ResourceQuery.Stable

variable {α : Type}

/-- On the items of a list an order is total and transitive. -/
structure Ranks (le : α → α → Bool) (items : List α) : Prop where
  total : ∀ a ∈ items, ∀ b ∈ items, le a b = true ∨ le b a = true
  trans : ∀ a ∈ items, ∀ b ∈ items, ∀ c ∈ items,
    le a b = true → le b c = true → le a c = true

/-- An order with a second one that decides its ties. -/
def thenLe (first second : α → α → Bool) (a b : α) : Bool :=
  first a b && (!first b a || second a b)

theorem thenLe_iff {first second : α → α → Bool} {a b : α} :
    thenLe first second a b = true ↔
      first a b = true ∧ (first b a = true → second a b = true) := by
  unfold thenLe
  cases first a b <;> cases first b a <;> simp

theorem Ranks.mono {le : α → α → Bool} {items others : List α} (h : Ranks le items)
    (hsub : ∀ a ∈ others, a ∈ items) : Ranks le others where
  total a ha b hb := h.total a (hsub a ha) b (hsub b hb)
  trans a ha b hb c hc := h.trans a (hsub a ha) b (hsub b hb) c (hsub c hc)

theorem Ranks.congr {le le' : α → α → Bool} {items : List α} (h : Ranks le items)
    (heq : ∀ a ∈ items, ∀ b ∈ items, le a b = le' a b) : Ranks le' items where
  total a ha b hb := by
    rw [← heq a ha b hb, ← heq b hb a ha]
    exact h.total a ha b hb
  trans a ha b hb c hc := by
    rw [← heq a ha b hb, ← heq b hb c hc, ← heq a ha c hc]
    exact h.trans a ha b hb c hc

/-- Items are ranked by what they are mapped to exactly if that is ranked. -/
theorem ranks_map_iff {β : Type} {le : α → α → Bool} {f : β → α} {items : List β} :
    Ranks le (items.map f) ↔ Ranks (fun a b => le (f a) (f b)) items := by
  constructor
  · intro h
    refine ⟨fun a ha b hb => ?_, fun a ha b hb c hc => ?_⟩
    · exact h.total _ (List.mem_map_of_mem ha) _ (List.mem_map_of_mem hb)
    · exact h.trans _ (List.mem_map_of_mem ha) _ (List.mem_map_of_mem hb) _
        (List.mem_map_of_mem hc)
  · intro h
    refine ⟨?_, ?_⟩
    · simp only [List.forall_mem_map]
      exact h.total
    · simp only [List.forall_mem_map]
      exact h.trans

theorem Ranks.thenLe {first second : α → α → Bool} {items : List α} (h₁ : Ranks first items)
    (h₂ : Ranks second items) : Ranks (thenLe first second) items where
  total a ha b hb := by
    rw [thenLe_iff, thenLe_iff]
    rcases h₁.total a ha b hb with hab | hba
    · by_cases hba : first b a = true
      · rcases h₂.total a ha b hb with h | h
        · exact Or.inl ⟨hab, fun _ => h⟩
        · exact Or.inr ⟨hba, fun _ => h⟩
      · exact Or.inl ⟨hab, fun h => absurd h hba⟩
    · by_cases hab : first a b = true
      · rcases h₂.total a ha b hb with h | h
        · exact Or.inl ⟨hab, fun _ => h⟩
        · exact Or.inr ⟨hba, fun _ => h⟩
      · exact Or.inr ⟨hba, fun h => absurd h hab⟩
  trans a ha b hb c hc := by
    rw [thenLe_iff, thenLe_iff, thenLe_iff]
    rintro ⟨hab, tab⟩ ⟨hbc, tbc⟩
    refine ⟨h₁.trans a ha b hb c hc hab hbc, fun hca => ?_⟩
    have hba := h₁.trans b hb c hc a ha hbc hca
    have hcb := h₁.trans c hc a ha b hb hca hab
    exact h₂.trans a ha b hb c hc (tab hba) (tbc hcb)

/-! ## Orders of all items -/

section Total

variable {le : α → α → Bool}

theorem pairwise_of_total (trans : ∀ a b c, le a b = true → le b c = true → le a c = true)
    (total : ∀ a b, le a b || le b a) {S : α → α → Prop} :
    ∀ {items : List α}, items.Pairwise S →
      (items.mergeSort le).Pairwise fun a b => le a b = true ∧ (le b a = true → S a b)
  | [], _ => by simp
  | a :: items, h => by
    have hsorted := List.pairwise_mergeSort trans total (a :: items)
    obtain ⟨before, after, hall, hrest, hbefore⟩ := List.mergeSort_cons trans total a items
    rw [List.pairwise_cons] at h
    have ih := pairwise_of_total trans total h.2
    rw [hrest] at ih
    rw [hall] at hsorted ⊢
    rw [List.pairwise_append] at ih
    obtain ⟨ihBefore, ihAfter, ihAcross⟩ := ih
    rw [List.pairwise_append, List.pairwise_cons] at hsorted
    have hmem : ∀ b ∈ after, b ∈ items := fun b hb => by
      have hb' : b ∈ items.mergeSort le := by
        rw [hrest]
        exact List.mem_append_right _ hb
      exact List.mem_mergeSort.mp hb'
    rw [List.pairwise_append, List.pairwise_cons]
    refine ⟨ihBefore, ⟨fun b hb => ⟨hsorted.2.1.1 b hb, fun _ => h.1 b (hmem b hb)⟩, ihAfter⟩, ?_⟩
    intro b hb c hc
    rcases List.mem_cons.mp hc with rfl | hc
    · have hlt := hbefore b hb
      have hle := total c b
      cases hcb : le c b
      · rw [hcb] at hle
        exact ⟨by simpa using hle, fun h => by cases h⟩
      · rw [hcb] at hlt
        cases hlt
    · exact ihAcross b hb c hc

end Total

/-! ## Orders of the items of a list -/

section Members

variable {le first second : α → α → Bool} {items : List α}

theorem mergeSort_attach (items : List α) (le : α → α → Bool) :
    (items.attach.mergeSort fun a b => le a.1 b.1).map (·.1) = items.mergeSort le := by
  rw [List.map_mergeSort (s := le) fun _ _ _ _ => rfl, List.attach_map_subtype_val]

/-- **A sort is stable**: it keeps two items as they stand unless the order requires the second
to come first. -/
theorem Ranks.pairwise_of_stable (h : Ranks le items) {S : α → α → Prop}
    (hS : items.Pairwise S) :
    (items.mergeSort le).Pairwise fun a b => le a b = true ∧ (le b a = true → S a b) := by
  have htrans (a b c : { x // x ∈ items }) (hab : le a.1 b.1 = true) (hbc : le b.1 c.1 = true) :
      le a.1 c.1 = true := h.trans a.1 a.2 b.1 b.2 c.1 c.2 hab hbc
  have htotal (a b : { x // x ∈ items }) : le a.1 b.1 || le b.1 a.1 := by
    rw [Bool.or_eq_true]
    exact h.total a.1 a.2 b.1 b.2
  have hattach : items.attach.Pairwise fun a b => S a.1 b.1 := by
    rw [← List.pairwise_map (f := fun a : { x // x ∈ items } => a.1),
      List.attach_map_subtype_val]
    exact hS
  rw [← mergeSort_attach, List.pairwise_map]
  exact pairwise_of_total htrans htotal hattach

theorem Ranks.pairwise_mergeSort (h : Ranks le items) :
    (items.mergeSort le).Pairwise fun a b => le a b = true :=
  (h.pairwise_of_stable (List.pairwise_of_forall fun _ _ => trivial)).imp fun hab => hab.1

/-- **Where no two items tie there is one arrangement in order**, which is the sort. -/
theorem Ranks.eq_mergeSort (h : Ranks le items)
    (hties : ∀ a ∈ items, ∀ b ∈ items, le a b = true → le b a = true → a = b)
    {arranged : List α} (hperm : arranged.Perm items)
    (hsorted : arranged.Pairwise fun a b => le a b = true) : arranged = items.mergeSort le := by
  have hanti (a b : α) (ha : a ∈ arranged) (hb : b ∈ items.mergeSort le)
      (hab : le a b = true) (hba : le b a = true) : a = b :=
    hties a (hperm.mem_iff.mp ha) b (List.mem_mergeSort.mp hb) hab hba
  exact List.Perm.eq_of_pairwise hanti hsorted h.pairwise_mergeSort
    (hperm.trans (List.mergeSort_perm items le).symm)

/-- Where no two items tie, a sort does not depend on how they stood. -/
theorem Ranks.mergeSort_eq_of_perm (h : Ranks le items)
    (hties : ∀ a ∈ items, ∀ b ∈ items, le a b = true → le b a = true → a = b)
    {others : List α} (hperm : others.Perm items) : others.mergeSort le = items.mergeSort le :=
  h.eq_mergeSort hties ((List.mergeSort_perm others le).trans hperm)
    (h.mono fun _ ha => hperm.mem_iff.mp ha).pairwise_mergeSort

/-- **What a sort puts first**: the first item stays there exactly if it may stand before every
other one. -/
theorem Ranks.head?_mergeSort_eq_iff {a : α} (h : Ranks le (a :: items)) :
    ((a :: items).mergeSort le).head? = some a ↔ ∀ b ∈ items, le a b = true := by
  have hself : le a a = true := (h.total a List.mem_cons_self a List.mem_cons_self).elim id id
  have hpairwise := h.pairwise_mergeSort
  constructor
  · intro hhead b hb
    obtain ⟨rest, hsorted⟩ := List.head?_eq_some_iff.mp hhead
    have hmem : b ∈ (a :: items).mergeSort le := List.mem_mergeSort.mpr (List.mem_cons_of_mem a hb)
    rw [hsorted] at hmem hpairwise
    rcases List.mem_cons.mp hmem with rfl | hrest
    · exact hself
    · exact (List.pairwise_cons.mp hpairwise).1 b hrest
  · intro hfirst
    have htrans (x y z : { x // x ∈ a :: items }) (hxy : le x.1 y.1 = true)
        (hyz : le y.1 z.1 = true) : le x.1 z.1 = true :=
      h.trans x.1 x.2 y.1 y.2 z.1 z.2 hxy hyz
    have htotal (x y : { x // x ∈ a :: items }) : le x.1 y.1 || le y.1 x.1 := by
      rw [Bool.or_eq_true]
      exact h.total x.1 x.2 y.1 y.2
    have hvalues := List.attach_map_subtype_val (a :: items)
    rw [← mergeSort_attach]
    obtain ⟨first, rest, hattach, hvalue, -⟩ := List.map_eq_cons_iff.mp hvalues
    obtain ⟨before, after, hsorted, -, hbefore⟩ := List.mergeSort_cons htrans htotal first rest
    -- nothing comes before the first item, not even one that equals it
    have hnil : before = [] := by
      refine List.eq_nil_iff_forall_not_mem.mpr fun x hx => ?_
      have hle : le first.1 x.1 = true := by
        rw [hvalue]
        rcases List.mem_cons.mp x.2 with heq | hmem
        · rw [heq]
          exact hself
        · exact hfirst x.1 hmem
      have hnot := hbefore x hx
      rw [hle] at hnot
      cases hnot
    rw [hattach, hsorted, hnil, List.nil_append, List.map_cons, List.head?_cons, hvalue]

/-! ## Two sorts in a row -/

/-- An order on items beside their places. -/
def onItems (le : α → α → Bool) (a b : α × Nat) : Bool := le a.1 b.1

theorem Ranks.onItems (h : Ranks le items) : Ranks (onItems le) items.zipIdx where
  total a ha b hb := h.total a.1 (List.fst_mem_of_mem_zipIdx ha) b.1 (List.fst_mem_of_mem_zipIdx hb)
  trans a ha b hb c hc := h.trans a.1 (List.fst_mem_of_mem_zipIdx ha) b.1
    (List.fst_mem_of_mem_zipIdx hb) c.1 (List.fst_mem_of_mem_zipIdx hc)

theorem map_mergeSort_onItems (le : α → α → Bool) (placed : List (α × Nat)) :
    (placed.mergeSort (Stable.onItems le)).map (·.1) = (placed.map (·.1)).mergeSort le :=
  List.map_mergeSort fun _ _ _ _ => rfl

theorem pairwise_zipIdx (items : List α) : items.zipIdx.Pairwise fun a b => a.2 ≤ b.2 := by
  have h : (items.zipIdx.map (·.2)).Pairwise (· ≤ ·) := by
    rw [List.zipIdx_map_snd]
    exact List.pairwise_le_range'
  exact List.pairwise_map.mp h

/-- Two items by an order, or by their places if they tie. -/
def PlacedLe (le : α → α → Bool) (a b : α × Nat) : Prop :=
  le a.1 b.1 = true ∧ (le b.1 a.1 = true → a.2 ≤ b.2)

theorem eq_of_placedLe {a b : α × Nat} (ha : a ∈ items.zipIdx) (hb : b ∈ items.zipIdx)
    (hab : PlacedLe le a b) (hba : PlacedLe le b a) : a = b := by
  have hplace : a.2 = b.2 := Nat.le_antisymm (hab.2 hba.1) (hba.2 hab.1)
  rw [List.mem_zipIdx_iff_getElem?] at ha hb
  rw [hplace, hb, Option.some.injEq] at ha
  exact Prod.ext ha.symm hplace

/-- **The stable arrangement is the sort**: with their places beside them no two items tie, so there
is one arrangement by an order that leaves ties as they stood. -/
theorem Ranks.eq_mergeSort_of_placed (h : Ranks le items) {placed : List (α × Nat)}
    (hperm : placed.Perm items.zipIdx) (hplaced : placed.Pairwise (PlacedLe le)) :
    placed.map (·.1) = items.mergeSort le := by
  have hsort := h.onItems.pairwise_of_stable (pairwise_zipIdx items)
  have heq : placed = items.zipIdx.mergeSort (Stable.onItems le) := by
    refine List.Perm.eq_of_pairwise (fun a b ha hb => ?_) hplaced hsort
      (hperm.trans (List.mergeSort_perm _ _).symm)
    exact eq_of_placedLe (hperm.mem_iff.mp ha) (List.mem_mergeSort.mp hb)
  rw [heq, map_mergeSort_onItems, List.zipIdx_map_fst]

/-- The same for the places alone. -/
theorem Ranks.mergeSort_eq_of_places (h : Ranks le items) {n : Nat} (hn : n = items.length)
    {places : List (Fin n)} (hperm : places.Perm (List.finRange n))
    (hplaced : places.Pairwise fun i j =>
      le (items.get (i.cast hn)) (items.get (j.cast hn)) = true ∧
        (le (items.get (j.cast hn)) (items.get (i.cast hn)) = true → i ≤ j)) :
    items.mergeSort le = places.map fun i => items.get (i.cast hn) := by
  subst hn
  have hzip : (List.finRange items.length).map (fun i => (items.get i, i.val)) = items.zipIdx :=
    List.ext_getElem (by simp) (by simp)
  have hsort := h.eq_mergeSort_of_placed (hzip ▸ hperm.map _) (List.pairwise_map.mpr hplaced)
  rw [← hsort, List.map_map]
  rfl

/-- **Sorting from the other end**: a list that is turned round, sorted and turned round again is
sorted by the opposite order. -/
theorem Ranks.reverse_mergeSort_reverse (h : Ranks le items) :
    (items.reverse.mergeSort le).reverse = items.mergeSort fun a b => le b a := by
  have hopposite : Ranks (fun a b => le b a) items :=
    ⟨fun a ha b hb => h.total b hb a ha,
      fun a ha b hb c hc hba hcb => h.trans c hc b hb a ha hcb hba⟩
  have hsort := (h.onItems.mono fun a ha => List.mem_reverse.mp ha).pairwise_of_stable
    (List.pairwise_reverse.mpr (pairwise_zipIdx items))
  have hplaced := hopposite.eq_mergeSort_of_placed
    ((List.reverse_perm _).trans ((List.mergeSort_perm _ _).trans (List.reverse_perm _)))
    (List.pairwise_reverse.mpr hsort)
  rwa [List.map_reverse, map_mergeSort_onItems, List.map_reverse, List.zipIdx_map_fst] at hplaced

/-- **Two sorts are one**: a list sorted by one order and then by another is sorted by the second
one with the first to break its ties. -/
theorem Ranks.mergeSort_mergeSort (h₁ : Ranks first items) (h₂ : Ranks second items) :
    (items.mergeSort second).mergeSort first = items.mergeSort (Stable.thenLe first second) := by
  have hsecond := h₂.onItems.pairwise_of_stable (pairwise_zipIdx items)
  have hfirst := (h₁.onItems.mono fun a ha => List.mem_mergeSort.mp ha).pairwise_of_stable hsecond
  have hperm := (List.mergeSort_perm (items.zipIdx.mergeSort (Stable.onItems second))
    (Stable.onItems first)).trans (List.mergeSort_perm items.zipIdx (Stable.onItems second))
  have hplaced : ((items.zipIdx.mergeSort (Stable.onItems second)).mergeSort
      (Stable.onItems first)).Pairwise (PlacedLe (Stable.thenLe first second)) := by
    refine hfirst.imp fun {a b} hab => ?_
    obtain ⟨hle, htie⟩ := hab
    refine ⟨thenLe_iff.mpr ⟨hle, fun hba => (htie hba).1⟩, fun hba => ?_⟩
    rw [thenLe_iff] at hba
    exact (htie hba.1).2 (hba.2 hle)
  have h := (h₁.thenLe h₂).eq_mergeSort_of_placed hperm hplaced
  rwa [map_mergeSort_onItems, map_mergeSort_onItems, List.zipIdx_map_fst] at h

end Members

end ResourceQuery.Stable
