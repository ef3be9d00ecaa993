/-!
# Sorting by a comparison that may fail

Where not all items compare with each other, or where of two different ones neither need be
below the other, what a sort gives depends on the pairs that it compares. This sort is stable and
fixes them: the run at the start is taken as it stands, a falling one turned round, and each
further item goes to its place among the sorted ones by halving.

Headlines:
* **`firstRun`**: the sorted run at the start of a list.
* **`placeByHalving`**: the place of an item among sorted ones, after those that it is not below.
* **`sort`**: the whole sort; it fails as soon as two items that do not compare are met.
* **`perm_of_sort`**: a sort loses no item and adds none.
-/

namespace ResourceQuery.Sorting

variable {α ε : Type}

/-- The items up to the first that does not go on with a run in which each item is below the one
before it, or none is. -/
def takeRun (below : α → α → Except ε Bool) (falling : Bool) (previous : α) :
    List α → Except ε (List α × List α)
  | [] => .ok ([], [])
  | x :: xs => do
    if (← below x previous) == falling then
      let (run, rest) ← takeRun below falling x xs
      return (x :: run, rest)
    else return ([], x :: xs)

/-- The run at the start of a list in rising order, and the items after it. -/
def firstRun (below : α → α → Except ε Bool) : List α → Except ε (List α × List α)
  | x :: y :: items => do
    let falling ← below y x
    let (run, rest) ← takeRun below falling y items
    let run := x :: y :: run
    return (if falling then run.reverse else run, rest)
  | items => .ok (items, [])

/-- The place of an item among sorted ones from `low` up to `high`, found by halving. -/
def placeByHalving (below : α → α → Except ε Bool) (item : α) (sorted : List α) (low high : Nat) :
    Except ε Nat :=
  if _ : low < high then
    let middle := low + (high - low) / 2
    match sorted[middle]? with
    | none => .ok low
    | some other => do
      if ← below item other then placeByHalving below item sorted low middle
      else placeByHalving below item sorted (middle + 1) high
  else .ok low
termination_by high - low

/-- Put an item in its place among sorted ones. -/
def insert (below : α → α → Except ε Bool) (sorted : List α) (item : α) : Except ε (List α) := do
  let place ← placeByHalving below item sorted 0 sorted.length
  return sorted.take place ++ item :: sorted.drop place

/-- Sort items. -/
def sort (below : α → α → Except ε Bool) (items : List α) : Except ε (List α) := do
  let (run, rest) ← firstRun below items
  rest.foldlM (insert below) run

/-! ## Laws -/

/-- What comes out of a computation in two steps comes out of the second one. -/
theorem eq_ok_of_bind {β γ : Type} {x : Except ε β} {f : β → Except ε γ} {c : γ}
    (h : (x >>= f) = .ok c) : ∃ b, x = .ok b ∧ f b = .ok c := by
  cases x with
  | error e => cases h
  | ok b => exact ⟨b, rfl, h⟩

theorem append_of_takeRun {below : α → α → Except ε Bool} {falling : Bool} :
    ∀ {xs : List α} {previous : α} {run rest : List α},
      takeRun below falling previous xs = .ok (run, rest) → run ++ rest = xs
  | [], _, _, _, h => by
    cases h
    rfl
  | x :: xs, _, _, _, h => by
    rw [takeRun] at h
    obtain ⟨goesOn, _, h⟩ := eq_ok_of_bind h
    split at h
    · obtain ⟨⟨run, rest⟩, ht, h⟩ := eq_ok_of_bind h
      cases h
      rw [List.cons_append, append_of_takeRun ht]
    · cases h
      rfl

/-- The items after the run at the start stand as they did. -/
theorem exists_of_firstRun {below : α → α → Except ε Bool} {xs run rest : List α}
    (h : firstRun below xs = .ok (run, rest)) : ∃ start, start ++ rest = xs ∧ run.Perm start := by
  unfold firstRun at h
  split at h
  · obtain ⟨falling, _, h⟩ := eq_ok_of_bind h
    obtain ⟨⟨more, rest⟩, ht, h⟩ := eq_ok_of_bind h
    cases h
    refine ⟨_ :: _ :: more, congrArg (fun xs => _ :: _ :: xs) (append_of_takeRun ht), ?_⟩
    cases falling
    · exact .refl _
    · exact List.reverse_perm _
  · cases h
    exact ⟨xs, List.append_nil xs, .refl xs⟩

theorem perm_of_firstRun {below : α → α → Except ε Bool} {xs run rest : List α}
    (h : firstRun below xs = .ok (run, rest)) : (run ++ rest).Perm xs := by
  obtain ⟨start, rfl, hperm⟩ := exists_of_firstRun h
  exact hperm.append_right rest

theorem perm_of_insert {below : α → α → Except ε Bool} {sorted out : List α} {item : α}
    (h : insert below sorted item = .ok out) : out.Perm (item :: sorted) := by
  obtain ⟨place, _, h⟩ := eq_ok_of_bind h
  cases h
  refine List.perm_middle.trans ?_
  rw [List.take_append_drop]

theorem perm_of_foldlM_insert {below : α → α → Except ε Bool} :
    ∀ {rest sorted out : List α}, rest.foldlM (insert below) sorted = .ok out →
      out.Perm (sorted ++ rest)
  | [], _, _, h => by
    cases h
    rw [List.append_nil]
  | item :: rest, sorted, out, h => by
    rw [List.foldlM_cons] at h
    obtain ⟨next, hi, h⟩ := eq_ok_of_bind h
    refine (perm_of_foldlM_insert h).trans ?_
    exact ((perm_of_insert hi).append_right rest).trans List.perm_middle.symm

/-- A sort loses no item and adds none. -/
theorem perm_of_sort {below : α → α → Except ε Bool} {items out : List α}
    (h : sort below items = .ok out) : out.Perm items := by
  obtain ⟨⟨run, rest⟩, hr, h⟩ := eq_ok_of_bind h
  exact (perm_of_foldlM_insert h).trans (perm_of_firstRun hr)

end ResourceQuery.Sorting
