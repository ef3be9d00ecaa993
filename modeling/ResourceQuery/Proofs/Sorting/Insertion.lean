import Mathlib.Data.List.Chain
import ResourceQuery.Proofs.Sorting.Stable
import ResourceQuery.Sorting

/-!
# Sorting by insertion is stable sorting

The sort that takes the run at the start and then puts each further item in its place needs
nothing but that the pairs which it compares do compare. If these comparisons fit together as an
order, then its result is the one stable arrangement, the same as that of a merge sort.

Headlines:
* **`sort_congr`**: only comparisons between items at different places count.
* **`exists_sort`**: where none of them fails, the sort does not.
* **`sort_map`**: items that are mapped to what is compared.
* **`InPlace`**, **`pairwise_insert`**: the place that is found by halving, and that the items stay
  sorted when another one is put there.
* **`pairwise_firstRun`**: the run at the start is sorted, also if it is turned round.
* **`sort_eq_mergeSort`**: the sort is the stable one.
-/

namespace ResourceQuery.Sorting

open Stable

variable {α β ε : Type}

/-! ## One step of halving -/

section Halving

variable {below : α → α → Except ε Bool} {item other : α} {sorted : List α} {low high : Nat}

theorem placeByHalving_of_not_lt (h : ¬ low < high) :
    placeByHalving below item sorted low high = .ok low := by
  rw [placeByHalving, dif_neg h]

theorem placeByHalving_of_none (h : low < high)
    (hnone : sorted[low + (high - low) / 2]? = none) :
    placeByHalving below item sorted low high = .ok low := by
  rw [placeByHalving, dif_pos h]
  simp only [hnone]

theorem placeByHalving_of_some (h : low < high)
    (hother : sorted[low + (high - low) / 2]? = some other) :
    placeByHalving below item sorted low high = (do
      if ← below item other then placeByHalving below item sorted low (low + (high - low) / 2)
      else placeByHalving below item sorted (low + (high - low) / 2 + 1) high) := by
  rw [placeByHalving, dif_pos h]
  simp only [hother]

end Halving

/-! ## Which comparisons count -/

section Congr

variable {below below' : α → α → Except ε Bool}

/-- Two comparisons give the same for two items, whichever is asked about. -/
def SameBelow (below below' : α → α → Except ε Bool) (a b : α) : Prop :=
  below a b = below' a b ∧ below b a = below' b a

theorem SameBelow.symm {a b : α} (h : SameBelow below below' a b) : SameBelow below below' b a :=
  ⟨h.2, h.1⟩

theorem takeRun_congr {falling : Bool} :
    ∀ {xs : List α} {previous : α}, (previous :: xs).Pairwise (SameBelow below below') →
      takeRun below falling previous xs = takeRun below' falling previous xs
  | [], _, _ => rfl
  | x :: xs, previous, h => by
    rw [List.pairwise_cons] at h
    have hfirst := (h.1 x List.mem_cons_self).2
    rw [takeRun, takeRun, hfirst, takeRun_congr h.2]

theorem firstRun_congr {items : List α} (h : items.Pairwise (SameBelow below below')) :
    firstRun below items = firstRun below' items := by
  match items, h with
  | [], _ => rfl
  | [x], _ => rfl
  | x :: y :: rest, h =>
    rw [List.pairwise_cons] at h
    have hfirst := (h.1 y List.mem_cons_self).2
    simp only [firstRun, hfirst, takeRun_congr h.2]

theorem placeByHalving_congr {item : α} {sorted : List α}
    (h : ∀ other ∈ sorted, below item other = below' item other) (low high : Nat) :
    placeByHalving below item sorted low high = placeByHalving below' item sorted low high := by
  fun_induction placeByHalving below item sorted low high with
  | case1 low high hlt middle hnone => rw [placeByHalving_of_none hlt hnone]
  | case2 low high hlt middle other hother ih₁ ih₂ =>
    rw [placeByHalving_of_some hlt hother, h other (List.mem_of_getElem? hother), ih₁, ih₂]
  | case3 low high hge => rw [placeByHalving_of_not_lt hge]

theorem insert_congr {item : α} {sorted : List α}
    (h : ∀ other ∈ sorted, below item other = below' item other) :
    insert below sorted item = insert below' sorted item := by
  rw [insert, insert, placeByHalving_congr h]

theorem foldlM_insert_congr {rest sorted : List α}
    (h : (sorted ++ rest).Pairwise (SameBelow below below')) :
    rest.foldlM (insert below) sorted = rest.foldlM (insert below') sorted := by
  induction rest generalizing sorted with
  | nil => rfl
  | cons item rest ih =>
    have hmiddle := (List.perm_middle.pairwise_iff SameBelow.symm).mp h
    rw [List.pairwise_cons] at hmiddle
    have hfirst : insert below sorted item = insert below' sorted item :=
      insert_congr fun other hother => (hmiddle.1 other (List.mem_append_left _ hother)).1
    rw [List.foldlM_cons, List.foldlM_cons, hfirst]
    cases hinsert : insert below' sorted item with
    | error e => rfl
    | ok next =>
      have hperm : (next ++ rest).Perm (sorted ++ item :: rest) :=
        ((perm_of_insert hinsert).append_right rest).trans List.perm_middle.symm
      exact ih ((hperm.pairwise_iff SameBelow.symm).mpr h)

/-- **Only comparisons between items at different places count.** -/
theorem sort_congr {items : List α} (h : items.Pairwise (SameBelow below below')) :
    sort below items = sort below' items := by
  unfold sort
  rw [firstRun_congr h]
  cases hrun : firstRun below' items with
  | error e => rfl
  | ok parts =>
    exact foldlM_insert_congr (((perm_of_firstRun hrun).pairwise_iff SameBelow.symm).mpr h)

end Congr

/-! ## Comparisons that do not fail -/

section Answering

/-- A comparison that always has an answer. -/
def answering (lt : α → α → Bool) (a b : α) : Except ε Bool := .ok (lt a b)

variable (lt : α → α → Bool)

theorem takeRun_answering (falling : Bool) (x previous : α) (xs : List α) :
    takeRun (answering (ε := ε) lt) falling previous (x :: xs) =
      if lt x previous = falling then
        (takeRun (answering lt) falling x xs).map fun parts => (x :: parts.1, parts.2)
      else .ok ([], x :: xs) := by
  rw [takeRun, answering]
  by_cases h : lt x previous = falling
  · simp [h, bind, Except.bind, pure, Except.pure, Except.map]
  · simp [h, bind, Except.bind, pure, Except.pure]

theorem exists_takeRun (falling : Bool) (xs : List α) (previous : α) :
    ∃ parts, takeRun (answering (ε := ε) lt) falling previous xs = .ok parts := by
  induction xs generalizing previous with
  | nil => exact ⟨_, rfl⟩
  | cons x xs ih =>
    obtain ⟨parts, hparts⟩ := ih x
    rw [takeRun_answering, hparts]
    split
    · exact ⟨_, rfl⟩
    · exact ⟨_, rfl⟩

theorem firstRun_answering (x y : α) (rest : List α) :
    firstRun (answering (ε := ε) lt) (x :: y :: rest) =
      (takeRun (answering lt) (lt y x) y rest).map fun parts =>
        (if lt y x then (x :: y :: parts.1).reverse else x :: y :: parts.1, parts.2) := by
  simp only [firstRun, answering, bind, Except.bind]
  cases takeRun (answering (ε := ε) lt) (lt y x) y rest <;> rfl

theorem exists_firstRun (items : List α) :
    ∃ parts, firstRun (answering (ε := ε) lt) items = .ok parts := by
  match items with
  | [] => exact ⟨_, rfl⟩
  | [x] => exact ⟨_, rfl⟩
  | x :: y :: rest =>
    obtain ⟨parts, hparts⟩ := exists_takeRun (ε := ε) lt (lt y x) rest y
    rw [firstRun_answering, hparts]
    exact ⟨_, rfl⟩

theorem exists_place (item : α) (sorted : List α) (low high : Nat) :
    ∃ place, placeByHalving (answering (ε := ε) lt) item sorted low high = .ok place := by
  fun_induction placeByHalving (answering (ε := ε) lt) item sorted low high with
  | case1 => exact ⟨_, rfl⟩
  | case2 low high hlt middle other hother ih₁ ih₂ =>
    cases h : lt item other with
    | true =>
      rw [answering, h]
      exact ih₁
    | false =>
      rw [answering, h]
      exact ih₂
  | case3 => exact ⟨_, rfl⟩

theorem exists_foldlM_insert (rest sorted : List α) :
    ∃ out, rest.foldlM (insert (answering (ε := ε) lt)) sorted = .ok out := by
  induction rest generalizing sorted with
  | nil => exact ⟨_, rfl⟩
  | cons item rest ih =>
    obtain ⟨place, hplace⟩ := exists_place (ε := ε) lt item sorted 0 sorted.length
    rw [List.foldlM_cons, insert, hplace]
    exact ih _

theorem exists_sort_answering (items : List α) :
    ∃ out, sort (answering (ε := ε) lt) items = .ok out := by
  obtain ⟨parts, hparts⟩ := exists_firstRun (ε := ε) lt items
  rw [sort, hparts]
  exact exists_foldlM_insert lt parts.2 parts.1

omit lt in
/-- **Where no comparison fails the sort does not fail.** -/
theorem exists_sort {below : α → α → Except ε Bool} {items : List α}
    (h : items.Pairwise fun a b => (∃ r, below a b = .ok r) ∧ ∃ r, below b a = .ok r) :
    ∃ out, sort below items = .ok out := by
  have hanswers : items.Pairwise
      (SameBelow below (answering fun a b => (below a b).toOption.getD false)) := by
    refine h.imp fun {a b} hab => ?_
    obtain ⟨⟨r, hr⟩, ⟨r', hr'⟩⟩ := hab
    exact ⟨by simp [answering, hr, Except.toOption], by simp [answering, hr', Except.toOption]⟩
  rw [sort_congr hanswers]
  exact exists_sort_answering _ items

end Answering

/-! ## Mapping what is compared -/

section Map

variable (below : β → β → Except ε Bool) (f : α → β)

/-- Items are compared by what they are mapped to. -/
def comparedBy (below : β → β → Except ε Bool) (f : α → β) (a b : α) : Except ε Bool :=
  below (f a) (f b)

theorem takeRun_map (falling : Bool) (xs : List α) (previous : α) :
    takeRun below falling (f previous) (xs.map f) =
      (takeRun (comparedBy below f) falling previous xs).map fun parts =>
        (parts.1.map f, parts.2.map f) := by
  induction xs generalizing previous with
  | nil => rfl
  | cons x xs ih =>
    rw [List.map_cons, takeRun, takeRun, ih, comparedBy]
    cases below (f x) (f previous) with
    | error e => rfl
    | ok answer =>
      by_cases h : (answer == falling) = true
      · cases takeRun (comparedBy below f) falling x xs <;>
          simp [h, bind, Except.bind, pure, Except.pure, Except.map]
      · simp [h, bind, Except.bind, pure, Except.pure, Except.map]

theorem firstRun_map (items : List α) :
    firstRun below (items.map f) =
      (firstRun (comparedBy below f) items).map fun parts =>
        (parts.1.map f, parts.2.map f) := by
  match items with
  | [] => rfl
  | [x] => rfl
  | x :: y :: rest =>
    simp only [List.map_cons, firstRun, takeRun_map, comparedBy]
    cases below (f y) (f x) with
    | error e => rfl
    | ok falling =>
      simp only [bind, Except.bind]
      cases takeRun (comparedBy below f) falling y rest with
      | error e => rfl
      | ok parts =>
        cases falling <;> simp [pure, Except.pure, Except.map]

theorem placeByHalving_map (item : α) (sorted : List α) (low high : Nat) :
    placeByHalving below (f item) (sorted.map f) low high =
      placeByHalving (comparedBy below f) item sorted low high := by
  fun_induction placeByHalving (comparedBy below f) item sorted low high with
  | case1 low high hlt middle hnone =>
    exact placeByHalving_of_none hlt (by rw [List.getElem?_map]; exact congrArg _ hnone)
  | case2 low high hlt middle other hother ih₁ ih₂ =>
    have hmapped : (sorted.map f)[middle]? = some (f other) := by
      rw [List.getElem?_map, hother, Option.map_some]
    rw [placeByHalving_of_some hlt hmapped, ih₁, ih₂, comparedBy]
  | case3 low high hge => exact placeByHalving_of_not_lt hge

theorem insert_map (sorted : List α) (item : α) :
    insert below (sorted.map f) (f item) =
      (insert (comparedBy below f) sorted item).map (List.map f) := by
  rw [insert, insert, placeByHalving_map, List.length_map]
  cases placeByHalving (comparedBy below f) item sorted 0 sorted.length with
  | error e => rfl
  | ok place => simp [bind, Except.bind, pure, Except.pure, Except.map]

theorem foldlM_insert_map (rest sorted : List α) :
    (rest.map f).foldlM (insert below) (sorted.map f) =
      (rest.foldlM (insert (comparedBy below f)) sorted).map (List.map f) := by
  induction rest generalizing sorted with
  | nil => rfl
  | cons item rest ih =>
    rw [List.map_cons, List.foldlM_cons, List.foldlM_cons, insert_map]
    cases insert (comparedBy below f) sorted item with
    | error e => rfl
    | ok next => exact ih next

/-- Sorting what items are mapped to. -/
theorem sort_map (items : List α) :
    sort below (items.map f) = (sort (comparedBy below f) items).map (List.map f) := by
  rw [sort, sort, firstRun_map]
  cases firstRun (comparedBy below f) items with
  | error e => rfl
  | ok parts => exact foldlM_insert_map below f parts.2 parts.1

end Map

/-! ## Comparisons that fit together -/

section Order

variable {lt : α → α → Bool} {items : List α} {S : α → α → Prop}

/-- An item may stand before another that is not below it. -/
def notAfter (lt : α → α → Bool) (a b : α) : Bool := !lt b a

theorem notAfter_iff {a b : α} : notAfter lt a b = true ↔ lt b a = false := by
  simp [notAfter]

theorem notAfter_of_lt (h : Ranks (notAfter lt) items) {a b : α} (ha : a ∈ items)
    (hb : b ∈ items) (hab : lt a b = true) : notAfter lt a b = true := by
  rcases h.total a ha b hb with hle | hle
  · exact hle
  · rw [notAfter_iff, hab] at hle
    cases hle

/-- What is below an item is below all that may not stand before the item. -/
theorem lt_of_lt_of_notAfter (h : Ranks (notAfter lt) items) {a b c : α} (ha : a ∈ items)
    (hb : b ∈ items) (hc : c ∈ items) (hab : lt a b = true) (hbc : notAfter lt b c = true) :
    lt a c = true := by
  by_contra hac
  rw [Bool.not_eq_true, ← notAfter_iff] at hac
  have hba := h.trans b hb c hc a ha hbc hac
  rw [notAfter_iff, hab] at hba
  cases hba

/-- Two items in order, which stand as they did if either could come first. -/
def StableLe (lt : α → α → Bool) (S : α → α → Prop) (a b : α) : Prop :=
  notAfter lt a b = true ∧ (notAfter lt b a = true → S a b)

theorem stableLe_of_lt (h : Ranks (notAfter lt) items) {a b : α} (ha : a ∈ items)
    (hb : b ∈ items) (hab : lt a b = true) : StableLe lt S a b := by
  refine ⟨notAfter_of_lt h ha hb hab, fun hba => ?_⟩
  rw [notAfter_iff, hab] at hba
  cases hba

/-- The next item of a run goes on like the one before it. -/
theorem isChain_of_takeRun {falling : Bool} :
    ∀ {xs : List α} {previous : α} {run rest : List α},
      takeRun (answering (ε := ε) lt) falling previous xs = .ok (run, rest) →
        (previous :: run).IsChain fun a b => lt b a = falling
  | [], previous, _, _, h => by
    cases h
    exact .singleton previous
  | x :: xs, previous, _, _, h => by
    rw [takeRun_answering] at h
    split at h
    · next hx =>
      obtain ⟨⟨run, rest⟩, hrun⟩ := exists_takeRun (ε := ε) lt falling xs x
      rw [hrun] at h
      cases h
      exact .cons_cons hx (isChain_of_takeRun hrun)
    · cases h
      exact .singleton previous

/-- What goes on in one direction goes on in it over several items. -/
theorem lt_eq_trans (h : Ranks (notAfter lt) items) {falling : Bool} {a b c : α} (ha : a ∈ items)
    (hb : b ∈ items) (hc : c ∈ items) (hab : lt b a = falling) (hbc : lt c b = falling) :
    lt c a = falling := by
  cases falling with
  | false =>
    rw [← notAfter_iff] at hab hbc ⊢
    exact h.trans a ha b hb c hc hab hbc
  | true => exact lt_of_lt_of_notAfter h hc hb ha hbc (notAfter_of_lt h hb ha hab)

/-- In a run every item goes on like those before it. -/
theorem pairwise_of_isChain (h : Ranks (notAfter lt) items) {falling : Bool} {run : List α}
    (hmem : ∀ a ∈ run, a ∈ items) (hchain : run.IsChain fun a b => lt b a = falling) :
    run.Pairwise fun a b => lt b a = falling := by
  have htrans : Trans (fun a b => a ∈ run ∧ b ∈ run ∧ lt b a = falling)
      (fun a b => a ∈ run ∧ b ∈ run ∧ lt b a = falling)
      (fun a b => a ∈ run ∧ b ∈ run ∧ lt b a = falling) := by
    constructor
    rintro a b c ⟨ha, hb, hab⟩ ⟨-, hc, hbc⟩
    exact ⟨ha, hc, lt_eq_trans h (hmem a ha) (hmem b hb) (hmem c hc) hab hbc⟩
  exact (List.IsChain.iff_mem.mp hchain).pairwise.imp fun hab => hab.2.2

/-- **The run at the start is sorted**: one that does not fall as it stands, and one that falls when
it is turned round, since no two of its items tie. -/
theorem pairwise_firstRun (h : Ranks (notAfter lt) items) (hS : items.Pairwise S)
    {run rest : List α} (hrun : firstRun (answering (ε := ε) lt) items = .ok (run, rest)) :
    run.Pairwise (StableLe lt S) := by
  match items, h, hS with
  | [], _, _ =>
    cases hrun
    exact .nil
  | [x], _, _ =>
    cases hrun
    exact List.pairwise_singleton _ _
  | x :: y :: more, h, hS =>
    obtain ⟨⟨others, rest'⟩, hothers⟩ := exists_takeRun (ε := ε) lt (lt y x) more y
    have hchain : (x :: y :: others).IsChain fun a b => lt b a = lt y x :=
      .cons_cons rfl (isChain_of_takeRun hothers)
    have hsub : (x :: y :: others).Sublist (x :: y :: more) := by
      rw [← append_of_takeRun hothers]
      exact List.sublist_append_left (x :: y :: others) rest'
    have hpairs := pairwise_of_isChain h (fun a ha => hsub.subset ha) hchain
    rw [firstRun_answering, hothers] at hrun
    cases hfalling : lt y x with
    | false =>
      rw [hfalling] at hrun hpairs
      cases hrun
      exact (hpairs.and (hS.sublist hsub)).imp fun hab => ⟨notAfter_iff.mpr hab.1, fun _ => hab.2⟩
    | true =>
      rw [hfalling] at hrun hpairs
      cases hrun
      exact List.pairwise_reverse.mpr (hpairs.imp_of_mem fun ha hb hba =>
        stableLe_of_lt h (hsub.subset hb) (hsub.subset ha) hba)

/-- The items before a place are not above an item, and those from it on are. -/
structure InPlace (lt : α → α → Bool) (item : α) (sorted : List α) (low high : Nat) : Prop where
  before : ∀ i x, i < low → sorted[i]? = some x → lt item x = false
  behind : ∀ i x, high ≤ i → sorted[i]? = some x → lt item x = true

theorem notAfter_of_lt_index {sorted : List α} {i j : Nat} {x y : α}
    (hsorted : sorted.Pairwise fun a b => notAfter lt a b = true) (hij : i < j)
    (hx : sorted[i]? = some x) (hy : sorted[j]? = some y) : notAfter lt x y = true := by
  obtain ⟨hi, rfl⟩ := List.getElem?_eq_some_iff.mp hx
  obtain ⟨hj, rfl⟩ := List.getElem?_eq_some_iff.mp hy
  exact List.pairwise_iff_getElem.mp hsorted i j hi hj hij

/-- **Halving finds the place** of an item among sorted ones: what is left is always between those
that are not above the item and those that are. -/
theorem inPlace_of_placeByHalving (h : Ranks (notAfter lt) items) {item : α} {sorted : List α}
    (hitem : item ∈ items) (hmem : ∀ x ∈ sorted, x ∈ items)
    (hsorted : sorted.Pairwise fun a b => notAfter lt a b = true) {low high place : Nat}
    (hplace : placeByHalving (answering (ε := ε) lt) item sorted low high = .ok place)
    (hlow : InPlace lt item sorted low high) (hhigh : high ≤ sorted.length) :
    InPlace lt item sorted place place := by
  fun_induction placeByHalving (answering (ε := ε) lt) item sorted low high with
  | case1 low high hlt middle hnone =>
    have hbound : middle < sorted.length := by omega
    rw [List.getElem?_eq_getElem hbound] at hnone
    cases hnone
  | case2 low high hlt middle other hother ih₁ ih₂ =>
    have hin : other ∈ items := hmem other (List.mem_of_getElem? hother)
    cases hbelow : lt item other with
    | true =>
      rw [answering, hbelow] at hplace
      refine ih₁ hplace ⟨hlow.before, fun i x hi hx => ?_⟩ (by omega)
      rcases Nat.eq_or_lt_of_le hi with rfl | hi
      · rwa [← Option.some.inj (hother.symm.trans hx)]
      · exact lt_of_lt_of_notAfter h hitem hin (hmem x (List.mem_of_getElem? hx)) hbelow
          (notAfter_of_lt_index hsorted hi hother hx)
    | false =>
      rw [answering, hbelow] at hplace
      refine ih₂ hplace ⟨fun i x hi hx => ?_, hlow.behind⟩ hhigh
      rcases Nat.eq_or_lt_of_le (Nat.le_of_lt_succ hi) with rfl | hi
      · rwa [← Option.some.inj (hother.symm.trans hx)]
      · rw [← notAfter_iff] at hbelow ⊢
        exact h.trans x (hmem x (List.mem_of_getElem? hx)) other hin item hitem
          (notAfter_of_lt_index hsorted hi hx hother) hbelow
  | case3 low high hge =>
    cases hplace
    exact ⟨hlow.before, fun i x hi => hlow.behind i x (by omega)⟩

/-- **Items stay sorted** when one that came later is put in its place. -/
theorem pairwise_insert (h : Ranks (notAfter lt) items) {item : α} {sorted out : List α}
    (hitem : item ∈ items) (hmem : ∀ x ∈ sorted, x ∈ items)
    (hsorted : sorted.Pairwise (StableLe lt S)) (hlater : ∀ x ∈ sorted, S x item)
    (hinsert : insert (answering (ε := ε) lt) sorted item = .ok out) :
    out.Pairwise (StableLe lt S) := by
  obtain ⟨place, hplace, hout⟩ := eq_ok_of_bind hinsert
  cases hout
  have hstart : InPlace lt item sorted 0 sorted.length := by
    refine ⟨fun i x hi => by omega, fun i x hi hx => ?_⟩
    rw [List.getElem?_eq_none hi] at hx
    cases hx
  have hin := inPlace_of_placeByHalving h hitem hmem (hsorted.imp fun hab => hab.1) hplace hstart
    (Nat.le_refl _)
  have hleft : ∀ x ∈ sorted.take place, StableLe lt S x item := by
    intro x hx
    obtain ⟨i, hi, hix⟩ := List.mem_take_iff_getElem.mp hx
    refine ⟨notAfter_iff.mpr (hin.before i x (by omega) ?_),
      fun _ => hlater x (List.mem_of_mem_take hx)⟩
    exact List.getElem?_eq_some_iff.mpr ⟨by omega, hix⟩
  have hright : ∀ x ∈ sorted.drop place, StableLe lt S item x := by
    intro x hx
    obtain ⟨i, hi, hix⟩ := List.mem_drop_iff_getElem.mp hx
    refine stableLe_of_lt h hitem (hmem x (List.mem_of_mem_drop hx)) ?_
    exact hin.behind (place + i) x (by omega) (List.getElem?_eq_some_iff.mpr ⟨by omega, hix⟩)
  have hparts := hsorted
  rw [← List.take_append_drop place sorted, List.pairwise_append] at hparts
  obtain ⟨htake, hdrop, hacross⟩ := hparts
  refine List.pairwise_append.mpr ⟨htake, List.pairwise_cons.mpr ⟨hright, hdrop⟩, ?_⟩
  intro x hx
  exact List.forall_mem_cons.mpr ⟨hleft x hx, hacross x hx⟩

theorem pairwise_foldlM_insert (h : Ranks (notAfter lt) items) {rest sorted out : List α}
    (hmem : ∀ x ∈ sorted ++ rest, x ∈ items) (hsorted : sorted.Pairwise (StableLe lt S))
    (hlater : ∀ x ∈ sorted, ∀ y ∈ rest, S x y) (hrest : rest.Pairwise S)
    (hout : rest.foldlM (insert (answering (ε := ε) lt)) sorted = .ok out) :
    out.Pairwise (StableLe lt S) := by
  induction rest generalizing sorted with
  | nil =>
    cases hout
    exact hsorted
  | cons item rest ih =>
    obtain ⟨next, hnext, hout⟩ := eq_ok_of_bind hout
    have hperm : ∀ x, x ∈ next ↔ x = item ∨ x ∈ sorted := fun x =>
      (perm_of_insert hnext).mem_iff.trans List.mem_cons
    rw [List.pairwise_cons] at hrest
    refine ih (fun x hx => hmem x ?_) ?_ ?_ hrest.2 hout
    · simp only [List.mem_append, hperm, List.mem_cons] at hx ⊢
      tauto
    · exact pairwise_insert h (hmem item (by simp)) (fun x hx => hmem x (by simp [hx])) hsorted
        (fun x hx => hlater x hx item List.mem_cons_self) hnext
    · intro x hx y hy
      rcases (hperm x).mp hx with rfl | hx
      · exact hrest.1 y hy
      · exact hlater x hx y (List.mem_cons_of_mem _ hy)

/-- A sort by comparisons that fit together gives the items in order, and leaves those that tie as
they stood. -/
theorem pairwise_sort (h : Ranks (notAfter lt) items) (hS : items.Pairwise S) {out : List α}
    (hout : sort (answering (ε := ε) lt) items = .ok out) : out.Pairwise (StableLe lt S) := by
  obtain ⟨⟨run, rest⟩, hrun, hinserted⟩ := eq_ok_of_bind hout
  have hsorted := pairwise_firstRun h hS hrun
  obtain ⟨start, rfl, hperm⟩ := exists_of_firstRun hrun
  rw [List.pairwise_append] at hS
  obtain ⟨-, hrest, hacross⟩ := hS
  refine pairwise_foldlM_insert h (fun x hx => ?_) hsorted (fun x hx => ?_) hrest hinserted
  · rw [List.mem_append, hperm.mem_iff] at hx
    exact List.mem_append.mpr hx
  · exact hacross x (hperm.mem_iff.mp hx)

/-- **The sort is the stable one** wherever the comparisons fit together. -/
theorem sort_eq_mergeSort {below : α → α → Except ε Bool}
    (hbelow : items.Pairwise fun a b => below a b = .ok (lt a b) ∧ below b a = .ok (lt b a))
    (h : Ranks (notAfter lt) items) : sort below items = .ok (items.mergeSort (notAfter lt)) := by
  -- with places beside the items there is only one stable arrangement
  have hanswers : items.Pairwise (SameBelow below (answering lt)) := hbelow
  have hmap := sort_map (answering (ε := ε) lt) Prod.fst items.zipIdx
  obtain ⟨placed, hplaced⟩ := exists_sort_answering (ε := ε) (onItems lt) items.zipIdx
  have hstable : placed.Pairwise (PlacedLe (notAfter lt)) :=
    pairwise_sort (α := α × Nat) h.onItems (pairwise_zipIdx items) hplaced
  have hout : sort (comparedBy (answering lt) Prod.fst) items.zipIdx = .ok placed := hplaced
  rw [List.zipIdx_map_fst, hout] at hmap
  rw [sort_congr hanswers, hmap]
  exact congrArg _ (h.eq_mergeSort_of_placed (perm_of_sort hplaced) hstable)

end Order

end ResourceQuery.Sorting
