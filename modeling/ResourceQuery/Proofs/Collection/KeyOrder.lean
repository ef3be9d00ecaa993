import ResourceQuery.Proofs.Collection.KeyLine
import ResourceQuery.Proofs.Sorting.Insertion
import ResourceQuery.Proofs.Value.Scalar

/-!
# Sorting records by clauses

A collection in memory sorts by its last clause first and by its first one last, each time
keeping records that tie. Where the values of every clause have an order, this is one stable
sort by the first clause in which two records differ.

Headlines:
* **`Sortable`**: the values by which a clause sorts can be read and have an order.
* **`Compares`**, **`Orders`**: no comparison of them fails, and the comparisons fit together.
* **`InLine.orders`**: those of values that stand in line do.
* **`orderLe`**: two records by the first clause in which they differ.
* **`foldrM_sortByClause`**, **`foldrM_sortByClause_of_orders`**: the repeated sorts are the one by
  `orderLe`; **`foldrM_sortByClause_of_places`**: they are known once the places are.
* **`exists_foldrM_sortByClause`**: sorting does not fail where no comparison does.
* **`perm_of_sorted`**: sorting loses and repeats no record, whatever the keys are.
-/

namespace ResourceQuery

open Stable

/-! ## One clause -/

/-- The value by which a clause sorts a record, absent if it cannot be read. -/
def sortKey (name item : Value) : Value := (attributeOf name item).toOption.getD .null

/-- May the first record stand before the second, by one clause? -/
def clauseLe (clause : Value × Direction) (a b : Value) : Bool :=
  keyLe clause.2 (sortKey clause.1 a) (sortKey clause.1 b)

/-- Records that tie by a clause tie when ascending, whatever the direction is. -/
theorem keyLe_asc_of_clauseLe {clause : Value × Direction} {a b : Value}
    (hab : clauseLe clause a b = true) (hba : clauseLe clause b a = true) :
    keyLe .asc (sortKey clause.1 a) (sortKey clause.1 b) = true ∧
      keyLe .asc (sortKey clause.1 b) (sortKey clause.1 a) = true := by
  unfold clauseLe at hab hba
  cases hdirection : clause.2 with
  | asc =>
    rw [hdirection] at hab hba
    exact ⟨hab, hba⟩
  | desc =>
    rw [hdirection] at hab hba
    exact ⟨hba, hab⟩

/-- The values by which a clause sorts records can be read, and no comparison of two of them
fails. -/
structure Compares (clause : Value × Direction) (items : List Value) : Prop where
  readable : ∀ item ∈ items, ∃ key, attributeOf clause.1 item = .ok key
  comparable : items.Pairwise fun a b => Comparable (sortKey clause.1 a) (sortKey clause.1 b)

/-- The comparisons fit together as well. -/
structure Orders (clause : Value × Direction) (items : List Value) : Prop
    extends Compares clause items where
  ranks : Ranks (clauseLe clause) items

/-- The values by which a clause sorts records can be read and have an order. -/
structure Sortable (clause : Value × Direction) (items : List Value) : Prop where
  readable : ∀ item ∈ items, ∃ key, attributeOf clause.1 item = .ok key
  ordered : haveOrder (items.map (sortKey clause.1)) = true

theorem attributeOf_eq_sortKey {name item key : Value} (h : attributeOf name item = .ok key) :
    attributeOf name item = .ok (sortKey name item) := by
  rw [sortKey, h]
  rfl

theorem Sortable.perm {clause : Value × Direction} {items others : List Value}
    (hperm : items.Perm others) (h : Sortable clause items) : Sortable clause others where
  readable item hitem := h.readable item (hperm.mem_iff.mpr hitem)
  ordered := haveOrder_perm (hperm.map _) h.ordered

theorem Sortable.ranks {clause : Value × Direction} {items : List Value}
    (h : Sortable clause items) : Ranks (clauseLe clause) items := by
  have hkeys := ranks_keyLe h.ordered clause.2
  rw [ranks_map_iff] at hkeys
  exact hkeys

/-- Values that have an order compare, and the comparisons fit together. -/
theorem Sortable.orders {clause : Value × Direction} {items : List Value}
    (h : Sortable clause items) : Orders clause items where
  readable := h.readable
  comparable := List.pairwise_map.mp (haveOrder_iff.mp h.ordered).2
  ranks := h.ranks

/-- The values of a clause are in line. -/
theorem InLine.orders {clause : OrderClause} {records : List Value}
    (h : InLine (records.map (·.resolve clause.name))) :
    Orders (.str clause.name, clause.direction) records := by
  have hranks : Ranks (clauseLe (.str clause.name, clause.direction)) records := by
    have hkeys := h.ranks clause.direction
    rw [ranks_map_iff] at hkeys
    exact hkeys
  exact {
    readable := fun item _ => ⟨item.resolve clause.name, rfl⟩
    comparable := (List.pairwise_map.mp h.placed).imp fun hab => hab.comparable
    ranks := hranks }

theorem Compares.perm {clause : Value × Direction} {items others : List Value}
    (hperm : items.Perm others) (h : Compares clause items) : Compares clause others where
  readable item hitem := h.readable item (hperm.mem_iff.mpr hitem)
  comparable := (hperm.pairwise_iff fun hab => hab.symm).mp h.comparable

theorem Orders.perm {clause : Value × Direction} {items others : List Value}
    (hperm : items.Perm others) (h : Orders clause items) : Orders clause others where
  toCompares := h.toCompares.perm hperm
  ranks := h.ranks.mono fun _ ha => hperm.mem_iff.mpr ha

theorem mapM_eq_ok_map {α β ε : Type} {f : α → Except ε β} {g : α → β} {items : List α}
    (h : ∀ a ∈ items, f a = .ok (g a)) : items.mapM f = .ok (items.map g) := by
  induction items with
  | nil => rfl
  | cons a items ih =>
    rw [List.mapM_cons, h a List.mem_cons_self, ih fun b hb => h b (List.mem_cons_of_mem a hb)]
    rfl

theorem comparable_of_sameKind {a b : Value} (h : Value.SameKind a b) : Comparable a b := by
  have hplace {a b : Value} (h : Value.SameKind a b) : (keyPlace? a b).isSome := by
    have hbelow := keyBelow?_of_sameKind h
    rw [keyBelow?_eq] at hbelow
    rw [← Option.isSome_map, hbelow]
    rfl
  exact ⟨hplace h, hplace h.symm⟩

/-- Records can be sorted by values that are all integers or all texts. -/
theorem sortable_of_sameKind {clause : Value × Direction} {items : List Value}
    (hreadable : ∀ item ∈ items, ∃ key, attributeOf clause.1 item = .ok key)
    (hkind : ∀ a ∈ items, ∀ b ∈ items,
      Value.SameKind (sortKey clause.1 a) (sortKey clause.1 b)) : Sortable clause items where
  readable := hreadable
  ordered := by
    rw [haveOrder_iff]
    constructor
    · intro k hk
      obtain ⟨item, hitem, rfl⟩ := List.mem_map.mp hk
      exact Value.isRanked_of_sameKind (hkind item hitem item hitem)
    · rw [List.pairwise_map]
      exact List.Pairwise.imp_of_mem
        (fun ha hb _ => comparable_of_sameKind (hkind _ ha _ hb))
        (List.pairwise_of_forall (R := fun _ _ => True) fun _ _ => trivial)

/-- Sorting records is sorting the keys that can be read, with the records beside them. -/
theorem sortByClause_eq {clause : Value × Direction} {items : List Value}
    (h : ∀ item ∈ items, ∃ key, attributeOf clause.1 item = .ok key) :
    sortByClause clause items =
      (sortKeyed clause.2 (items.map fun item => (sortKey clause.1 item, item))).map
        (List.map (·.2)) := by
  have hkeyed : (items.mapM fun item => do return (← attributeOf clause.1 item, item)) =
      .ok (items.map fun item => (sortKey clause.1 item, item)) := by
    refine mapM_eq_ok_map fun item hitem => ?_
    obtain ⟨key, hkey⟩ := h item hitem
    rw [attributeOf_eq_sortKey hkey]
    rfl
  unfold sortByClause
  rw [hkeyed]
  simp only [bind, Except.bind]
  cases sortKeyed clause.2 (items.map fun item => (sortKey clause.1 item, item)) <;> rfl

theorem keyedBelow_of_comparable {x y : Value × Value} (h : Comparable x.1 y.1) :
    keyedBelow x y = .ok (keyBelow? x.1 y.1 == some true) ∧
      keyedBelow y x = .ok (keyBelow? y.1 x.1 == some true) := by
  have hbelow {x y : Value × Value} (h : (keyPlace? x.1 y.1).isSome) :
      keyedBelow x y = .ok (keyBelow? x.1 y.1 == some true) := by
    obtain ⟨o, ho⟩ := Option.isSome_iff_exists.mp h
    unfold keyedBelow
    rw [keyBelow?_eq, ho]
    cases o <;> rfl
  exact ⟨hbelow h.1, hbelow h.2⟩

/-- A sort of keyed records never fails where no comparison of keys does. -/
theorem exists_sortKeyed {keyed : List (Value × Value)}
    (h : keyed.Pairwise fun x y => Comparable x.1 y.1) (d : Direction) :
    ∃ out, sortKeyed d keyed = .ok out := by
  have hsort {keyed : List (Value × Value)}
      (h : keyed.Pairwise fun x y => Comparable x.1 y.1) :
      ∃ out, Sorting.sort keyedBelow keyed = .ok out := by
    refine Sorting.exists_sort (h.imp fun {x y} hxy => ?_)
    obtain ⟨hx, hy⟩ := keyedBelow_of_comparable hxy
    exact ⟨⟨_, hx⟩, ⟨_, hy⟩⟩
  unfold sortKeyed
  split
  · exact ⟨_, rfl⟩
  · cases d with
    | asc => exact hsort h
    | desc =>
      obtain ⟨out, hout⟩ := hsort (List.pairwise_reverse.mpr (h.imp fun hxy => hxy.symm))
      simp only [hout]
      exact ⟨_, rfl⟩

/-- Where the comparisons fit together it is the stable sort, whichever way is taken. -/
theorem sortKeyed_of_ranks {keyed : List (Value × Value)} {d : Direction}
    (hcompare : keyed.Pairwise fun x y => Comparable x.1 y.1)
    (hranks : Ranks (fun x y => keyLe d x.1 y.1) keyed) :
    sortKeyed d keyed = .ok (keyed.mergeSort fun x y => keyLe d x.1 y.1) := by
  unfold sortKeyed
  split
  · rfl
  · cases d with
    | asc => exact Sorting.sort_eq_mergeSort (hcompare.imp keyedBelow_of_comparable) hranks
    | desc =>
      have hopposite : Ranks (fun x y : Value × Value => keyLe .asc x.1 y.1) keyed :=
        ⟨fun x hx y hy => hranks.total y hy x hx,
          fun x hx y hy z hz hxy hyz => hranks.trans z hz y hy x hx hyz hxy⟩
      have hreversed : keyed.reverse.Pairwise fun x y => Comparable x.1 y.1 :=
        List.pairwise_reverse.mpr (hcompare.imp fun hxy => hxy.symm)
      have hsort := Sorting.sort_eq_mergeSort (hreversed.imp keyedBelow_of_comparable)
        (hopposite.mono fun x hx => List.mem_reverse.mp hx)
      simp only [hsort]
      exact congrArg Except.ok hopposite.reverse_mergeSort_reverse

/-- Records can be sorted by a clause where no comparison of their values fails. -/
theorem exists_sortByClause {clause : Value × Direction} {items : List Value}
    (h : Compares clause items) : ∃ out, sortByClause clause items = .ok out := by
  have hcompare : (items.map fun item => (sortKey clause.1 item, item)).Pairwise
      fun x y => Comparable x.1 y.1 := List.pairwise_map.mpr h.comparable
  obtain ⟨out, hout⟩ := exists_sortKeyed hcompare clause.2
  rw [sortByClause_eq h.readable, hout]
  exact ⟨_, rfl⟩

/-- **Sorting records by a clause is a stable sort** where the comparisons of their values fit
together. -/
theorem sortByClause_of_orders {clause : Value × Direction} {items : List Value}
    (h : Orders clause items) :
    sortByClause clause items = .ok (items.mergeSort (clauseLe clause)) := by
  rw [sortByClause_eq h.readable, sortKeyed_of_ranks (List.pairwise_map.mpr h.comparable)
    (ranks_map_iff.mpr h.ranks)]
  have hsort := List.map_mergeSort (r := clauseLe clause)
    (s := fun x y : Value × Value => keyLe clause.2 x.1 y.1)
    (f := fun item => (sortKey clause.1 item, item)) (l := items) fun _ _ _ _ => rfl
  rw [← hsort, Except.map, List.map_map]
  exact congrArg _ (List.map_id _)

theorem sortByClause_of_sortable {clause : Value × Direction} {items : List Value}
    (h : Sortable clause items) :
    sortByClause clause items = .ok (items.mergeSort (clauseLe clause)) :=
  sortByClause_of_orders h.orders

/-! ## Several clauses -/

/-- May the first record stand before the second? The first clause in which they differ decides,
and records that differ in none may stand in any order. -/
def orderLe : List (Value × Direction) → Value → Value → Bool
  | [] => fun _ _ => true
  | clause :: rest => thenLe (clauseLe clause) (orderLe rest)

/-- Records of which each may stand before the other tie by every clause. -/
theorem clauseLe_of_orderLe {clauses : List (Value × Direction)} {a b : Value}
    (hab : orderLe clauses a b = true) (hba : orderLe clauses b a = true) :
    ∀ clause ∈ clauses, clauseLe clause a b = true ∧ clauseLe clause b a = true := by
  induction clauses with
  | nil => exact fun clause hclause => absurd hclause List.not_mem_nil
  | cons clause rest ih =>
    obtain ⟨hfirst, hrest⟩ := thenLe_iff.mp hab
    obtain ⟨hfirst', hrest'⟩ := thenLe_iff.mp hba
    exact List.forall_mem_cons.mpr ⟨⟨hfirst, hfirst'⟩, ih (hrest hfirst') (hrest' hfirst)⟩

theorem ranks_orderLe_of_orders {clauses : List (Value × Direction)} {items : List Value}
    (h : ∀ clause ∈ clauses, Orders clause items) : Ranks (orderLe clauses) items := by
  induction clauses with
  | nil => exact ⟨fun _ _ _ _ => Or.inl rfl, fun _ _ _ _ _ _ _ _ => rfl⟩
  | cons clause rest ih =>
    rw [List.forall_mem_cons] at h
    exact h.1.ranks.thenLe (ih h.2)

theorem ranks_orderLe {clauses : List (Value × Direction)} {items : List Value}
    (h : ∀ clause ∈ clauses, Sortable clause items) : Ranks (orderLe clauses) items :=
  ranks_orderLe_of_orders fun clause hclause => (h clause hclause).orders

/-- **The repeated sorts are one**: the stable sort by the first clause in which records differ. -/
theorem foldrM_sortByClause_of_orders {clauses : List (Value × Direction)} {items : List Value}
    (h : ∀ clause ∈ clauses, Orders clause items) :
    clauses.foldrM sortByClause items = .ok (items.mergeSort (orderLe clauses)) := by
  induction clauses with
  | nil =>
    have hsorted : items.Pairwise fun a b => orderLe [] a b = true :=
      List.pairwise_of_forall fun _ _ => rfl
    rw [List.mergeSort_of_pairwise hsorted]
    rfl
  | cons clause rest ih =>
    rw [List.forall_mem_cons] at h
    have hperm := List.mergeSort_perm items (orderLe rest)
    rw [List.foldrM_cons, ih h.2]
    show sortByClause clause (items.mergeSort (orderLe rest)) = _
    rw [sortByClause_of_orders (h.1.perm hperm.symm),
      h.1.ranks.mergeSort_mergeSort (ranks_orderLe_of_orders h.2)]
    rfl

theorem foldrM_sortByClause {clauses : List (Value × Direction)} {items : List Value}
    (h : ∀ clause ∈ clauses, Sortable clause items) :
    clauses.foldrM sortByClause items = .ok (items.mergeSort (orderLe clauses)) :=
  foldrM_sortByClause_of_orders fun clause hclause => (h clause hclause).orders

/-- The sorted records, from the places that they come from. -/
theorem foldrM_sortByClause_of_places {clauses : List (Value × Direction)} {items : List Value}
    (h : ∀ clause ∈ clauses, Sortable clause items) {n : Nat} (hn : n = items.length)
    {places : List (Fin n)} (hperm : places.Perm (List.finRange n))
    (hplaced : places.Pairwise fun i j =>
      orderLe clauses (items.get (i.cast hn)) (items.get (j.cast hn)) = true ∧
        (orderLe clauses (items.get (j.cast hn)) (items.get (i.cast hn)) = true → i ≤ j)) :
    clauses.foldrM sortByClause items = .ok (places.map fun i => items.get (i.cast hn)) := by
  rw [foldrM_sortByClause h, (ranks_orderLe h).mergeSort_eq_of_places hn hperm hplaced]

/-! ## Keys of any kind -/

theorem perm_of_sortKeyed {direction : Direction} {keyed out : List (Value × Value)}
    (h : sortKeyed direction keyed = .ok out) : out.Perm keyed := by
  unfold sortKeyed at h
  split at h
  · cases h
    exact List.mergeSort_perm _ _
  · cases direction with
    | asc => exact Sorting.perm_of_sort h
    | desc =>
      obtain ⟨reversed, hsort, h⟩ := Sorting.eq_ok_of_bind h
      cases h
      have hperm := Sorting.perm_of_sort hsort
      exact (List.reverse_perm reversed).trans (hperm.trans (List.reverse_perm keyed))

theorem map_snd_of_mapM_key {name : Value} :
    ∀ {items : List Value} {keyed : List (Value × Value)},
      (items.mapM fun item => do return (← attributeOf name item, item)) = .ok keyed →
        keyed.map (·.2) = items
  | [], keyed, h => by
    cases h
    rfl
  | item :: items, keyed, h => by
    rw [List.mapM_cons] at h
    obtain ⟨first, hfirst, h⟩ := Sorting.eq_ok_of_bind h
    obtain ⟨rest, hrest, h⟩ := Sorting.eq_ok_of_bind h
    obtain ⟨key, _, hfirst⟩ := Sorting.eq_ok_of_bind hfirst
    cases hfirst
    cases h
    rw [List.map_cons, map_snd_of_mapM_key hrest]

theorem perm_of_sortByClause {clause : Value × Direction} {items out : List Value}
    (h : sortByClause clause items = .ok out) : out.Perm items := by
  obtain ⟨keyed, hkeyed, h⟩ := Sorting.eq_ok_of_bind h
  obtain ⟨sorted, hsorted, h⟩ := Sorting.eq_ok_of_bind h
  cases h
  have hperm := (perm_of_sortKeyed hsorted).map (·.2)
  rwa [map_snd_of_mapM_key hkeyed] at hperm

theorem perm_of_foldrM_sortByClause :
    ∀ {clauses : List (Value × Direction)} {items out : List Value},
      clauses.foldrM sortByClause items = .ok out → out.Perm items
  | [], _, _, h => by
    cases h
    exact List.Perm.refl _
  | clause :: rest, _, _, h => by
    rw [List.foldrM_cons] at h
    obtain ⟨sorted, hrest, h⟩ := Sorting.eq_ok_of_bind h
    exact (perm_of_sortByClause h).trans (perm_of_foldrM_sortByClause hrest)

/-- **Sorting does not fail** where no comparison of the values of a clause does. -/
theorem exists_foldrM_sortByClause {clauses : List (Value × Direction)} {items : List Value}
    (h : ∀ clause ∈ clauses, Compares clause items) :
    ∃ out, clauses.foldrM sortByClause items = .ok out := by
  induction clauses with
  | nil => exact ⟨items, rfl⟩
  | cons clause rest ih =>
    rw [List.forall_mem_cons] at h
    obtain ⟨sorted, hsorted⟩ := ih h.2
    rw [List.foldrM_cons, hsorted]
    exact exists_sortByClause (h.1.perm (perm_of_foldrM_sortByClause hsorted).symm)

/-- The records in order can be listed where no comparison by a clause fails. -/
theorem Memory.exists_sorted {m : Memory} {matching : List Value}
    (hmatching : m.matching = .ok matching)
    (hcompare : ∀ clause ∈ m.ordering, Compares clause matching) :
    ∃ sorted, m.sorted = .ok sorted := by
  unfold Memory.sorted
  rw [hmatching]
  exact exists_foldrM_sortByClause hcompare

/-- **Sorting loses and repeats no record**, whatever the keys are. -/
theorem perm_of_sorted {m : Memory} {sorted : List Value} (h : m.sorted = .ok sorted) :
    ∃ matching, m.matching = .ok matching ∧ sorted.Perm matching := by
  obtain ⟨matching, hmatching, h⟩ := Sorting.eq_ok_of_bind h
  exact ⟨matching, hmatching, perm_of_foldrM_sortByClause h⟩

end ResourceQuery
