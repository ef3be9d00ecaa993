import Mathlib.Data.List.Induction
import ResourceQuery.OrderedMap

/-!
# Tables that are filled entry by entry

What a table holds after many entries: its names in the order in which they were first entered,
under each the value that was entered last. Where an entry goes to the end instead, the last entry
of each name is left, in the order of these.

Headlines:
* **`pairwise_findIdx_eraseDups`**: what is found in a list, each once, in the order in which it is
  found.
* **`OrderedMap.keys_insertAll`**, **`get?_insertAll`**: names and values after many entries.
* **`OrderedMap.get?_eq_some_iff`**: the values of a table by their names.
* **`lastOnes`**: the last item of each name; **`OrderedMap.entries_insertLastAll`**: what is left
  where entries go to the end.
-/

namespace ResourceQuery

theorem eraseDups_concat {α : Type} [BEq α] [LawfulBEq α] (xs : List α) (x : α) :
    (xs ++ [x]).eraseDups = if x ∈ xs then xs.eraseDups else xs.eraseDups ++ [x] := by
  rw [List.eraseDups_append]
  by_cases h : x ∈ xs
  · simp [h, List.removeAll]
  · simp [h, List.removeAll, List.eraseDups_cons]

theorem eraseDups_of_nodup {α : Type} [BEq α] [LawfulBEq α] {xs : List α} (h : xs.Nodup) :
    xs.eraseDups = xs := by
  induction xs using List.reverseRecOn with
  | nil => rfl
  | append_singleton xs x ih =>
    have hnew : x ∉ xs := fun hx => (List.nodup_append.mp h).2.2 x hx x (by simp) rfl
    rw [eraseDups_concat, if_neg hnew, ih (List.nodup_append.mp h).1]

theorem findIdx_concat_of_mem {α : Type} {p : α → Bool} {items : List α} (x : α)
    (h : ∃ a ∈ items, p a = true) : (items ++ [x]).findIdx p = items.findIdx p := by
  rw [List.findIdx_append, if_pos (List.findIdx_lt_length.mpr h)]

/-- What is found in the items of a list, each once, stands in the order in which it is found. -/
theorem pairwise_findIdx_eraseDups {α β : Type} [BEq β] [LawfulBEq β] (f : α → Option β)
    (items : List α) :
    (items.filterMap f).eraseDups.Pairwise fun b c =>
      items.findIdx (f · == some b) < items.findIdx (f · == some c) := by
  induction items using List.reverseRecOn with
  | nil => exact List.Pairwise.nil
  | append_singleton items x ih =>
    have hfound {b : β} (hb : b ∈ (items.filterMap f).eraseDups) :
        ∃ a ∈ items, (f a == some b) = true := by
      obtain ⟨a, ha, hab⟩ := List.mem_filterMap.mp (List.mem_eraseDups.mp hb)
      exact ⟨a, ha, by rw [hab, beq_self_eq_true]⟩
    have hold : (items.filterMap f).eraseDups.Pairwise fun b c =>
        (items ++ [x]).findIdx (f · == some b) < (items ++ [x]).findIdx (f · == some c) := by
      refine ih.imp_of_mem fun hb hc hbc => ?_
      rw [findIdx_concat_of_mem x (hfound hb), findIdx_concat_of_mem x (hfound hc)]
      exact hbc
    rw [List.filterMap_append]
    cases hx : f x with
    | none => simpa [hx] using hold
    | some c =>
      rw [List.filterMap_cons_some hx, List.filterMap_nil, eraseDups_concat]
      split
      · exact hold
      · next hnew =>
        refine List.pairwise_append.mpr ⟨hold, List.pairwise_singleton _ _, fun b hb d hd => ?_⟩
        -- a new name is found at the end, after all others
        rw [List.mem_singleton.mp hd, findIdx_concat_of_mem x (hfound hb), List.findIdx_append,
          if_neg]
        · exact Nat.lt_of_lt_of_le (List.findIdx_lt_length.mpr (hfound hb)) (Nat.le_add_left _ _)
        · rw [List.findIdx_lt_length]
          rintro ⟨a, ha, hac⟩
          exact hnew (List.mem_filterMap.mpr ⟨a, ha, eq_of_beq hac⟩)

/-- Of the items that satisfy a test, each once: they stand where they first stand in the list. -/
theorem pairwise_idxOf_eraseDups {α : Type} [BEq α] [LawfulBEq α] (items : List α)
    (test : α → Bool) :
    (items.filter test).eraseDups.Pairwise fun a b => items.idxOf a < items.idxOf b := by
  have hindex {a : α} (ha : a ∈ (items.filter test).eraseDups) :
      items.findIdx (Option.guard test · == some a) = items.idxOf a := by
    have htest : test a = true := (List.mem_filter.mp (List.mem_eraseDups.mp ha)).2
    refine congrArg (List.findIdx · items) (funext fun b => ?_)
    rw [Bool.eq_iff_iff, beq_iff_eq, beq_iff_eq, Option.guard_eq_some_iff]
    exact ⟨And.left, fun h => ⟨h, h ▸ htest⟩⟩
  have hfound := pairwise_findIdx_eraseDups (Option.guard test) items
  rw [List.filterMap_eq_filter] at hfound
  exact hfound.imp_of_mem fun ha hb hab => by rwa [hindex ha, hindex hb] at hab

/-- The last item of each name, in the order of these. -/
def lastOnes {α : Type} (name : α → String) : List α → List α
  | [] => []
  | x :: rest => if rest.any (name · == name x) then lastOnes name rest else x :: lastOnes name rest

theorem lastOnes_concat {α : Type} (name : α → String) (xs : List α) (x : α) :
    lastOnes name (xs ++ [x]) = (lastOnes name xs).filter (name · != name x) ++ [x] := by
  induction xs with
  | nil => rfl
  | cons y rest ih =>
    rw [List.cons_append, lastOnes, lastOnes, ih, List.any_append]
    by_cases hlater : rest.any (name · == name y) = true
    · rw [if_pos hlater, if_pos (by rw [hlater]; rfl)]
    · by_cases hname : name x = name y
      · simp [hlater, hname]
      · simp [hlater, hname, Ne.symm hname]

theorem lastOnes_of_nodup {α : Type} {name : α → String} {xs : List α} (h : (xs.map name).Nodup) :
    lastOnes name xs = xs := by
  induction xs with
  | nil => rfl
  | cons x rest ih =>
    rw [List.map_cons, List.nodup_cons] at h
    have hnone : ¬ rest.any (name · == name x) = true := by
      simpa [List.mem_map] using h.1
    rw [lastOnes, if_neg hnone, ih h.2]

theorem map_lastOnes {α β : Type} {name : α → String} (name' : β → String) {f : α → β}
    (h : ∀ a, name' (f a) = name a) (xs : List α) :
    (lastOnes name xs).map f = lastOnes name' (xs.map f) := by
  induction xs with
  | nil => rfl
  | cons x rest ih =>
    rw [List.map_cons, lastOnes, lastOnes, ← ih]
    have hany : (rest.map f).any (name' · == name' (f x)) = rest.any (name · == name x) := by
      rw [List.any_map]
      simp only [Function.comp_def, h]
    rw [hany]
    split <;> rfl

namespace OrderedMap

variable {α : Type}

@[ext] theorem ext_entries {m m' : OrderedMap α} (h : m.entries = m'.entries) : m = m' := by
  cases m
  cases m'
  cases h
  rfl

/-- Enter values one after the other. -/
def insertAll (entries : List (String × α)) (m : OrderedMap α) : OrderedMap α :=
  entries.foldl (fun m e => m.insert e.1 e.2) m

theorem insertAll_append (xs ys : List (String × α)) (m : OrderedMap α) :
    m.insertAll (xs ++ ys) = (m.insertAll xs).insertAll ys := List.foldl_append

theorem insertAll_concat (entries : List (String × α)) (e : String × α) (m : OrderedMap α) :
    m.insertAll (entries ++ [e]) = (m.insertAll entries).insert e.1 e.2 :=
  insertAll_append entries [e] m

/-- **Names** stand in the order in which they were first entered. -/
theorem keys_insertAll (entries : List (String × α)) (m : OrderedMap α) :
    (m.insertAll entries).keys = (m.keys ++ entries.map (·.1)).eraseDups := by
  induction entries using List.reverseRecOn with
  | nil =>
    rw [List.map_nil, List.append_nil]
    exact (eraseDups_of_nodup m.nodup).symm
  | append_singleton entries e ih =>
    have hmem : e.1 ∈ (m.insertAll entries).keys ↔ e.1 ∈ m.keys ++ entries.map (·.1) := by
      rw [ih, List.mem_eraseDups]
    rw [insertAll_concat, keys_insert, List.map_append, ← List.append_assoc, List.map_singleton,
      eraseDups_concat, ← ih]
    by_cases h : e.1 ∈ (m.insertAll entries).keys
    · rw [if_pos h, if_pos (hmem.mp h)]
    · rw [if_neg h, if_neg fun hnew => h (hmem.mpr hnew)]

/-- **Values** are the ones entered last. -/
theorem get?_insertAll (entries : List (String × α)) (m : OrderedMap α) (name : String) :
    (m.insertAll entries).get? name =
      ((entries.filter (·.1 == name)).getLast?.map (·.2)).or (m.get? name) := by
  induction entries using List.reverseRecOn with
  | nil => rfl
  | append_singleton entries e ih =>
    rw [insertAll_concat, List.filter_append]
    by_cases h : e.1 = name
    · subst h
      rw [get?_insert_self]
      simp
    · rw [get?_insert_of_ne (Ne.symm h), ih]
      simp [h]

theorem keys_ofList (entries : List (String × α)) :
    (ofList entries).keys = (entries.map (·.1)).eraseDups := keys_insertAll entries empty

theorem get?_ofList (entries : List (String × α)) (name : String) :
    (ofList entries).get? name = (entries.filter (·.1 == name)).getLast?.map (·.2) :=
  (get?_insertAll entries empty name).trans Option.or_none

theorem get?_eq_some_iff {m : OrderedMap α} {name : String} {value : α} :
    m.get? name = some value ↔ (name, value) ∈ m.entries := by
  obtain ⟨entries, hnodup⟩ := m
  simp only [get?]
  induction entries with
  | nil => simp [ findEntry?]
  | cons e rest ih =>
    obtain ⟨k, v⟩ := e
    rw [List.map_cons, List.nodup_cons] at hnodup
    rw [ findEntry?, List.mem_cons]
    by_cases h : k = name
    · subst h
      have hfresh : (k, value) ∉ rest := fun hmem =>
        hnodup.1 (List.mem_map.mpr ⟨_, hmem, rfl⟩)
      simp [hfresh, eq_comm]
    · simp [h, ih hnodup.2, Ne.symm h]

/-! ## Entries that go to the end -/

theorem entries_insertLast (name : String) (value : α) (m : OrderedMap α) :
    (m.insertLast name value).entries = m.entries.filter (·.1 != name) ++ [(name, value)] := by
  refine putEntry_of_not_mem fun hmem => ?_
  obtain ⟨e, he, hname⟩ := List.mem_map.mp hmem
  have hother := (List.mem_filter.mp he).2
  simp [hname] at hother

/-- **The last entry of each name** is left if entries go to the end. -/
theorem entries_insertLastAll (entries : List (String × α)) (m : OrderedMap α) :
    (entries.foldl (fun m e => m.insertLast e.1 e.2) m).entries =
      lastOnes (·.1) (m.entries ++ entries) := by
  induction entries using List.reverseRecOn with
  | nil =>
    rw [List.append_nil]
    exact (lastOnes_of_nodup m.nodup).symm
  | append_singleton entries e ih =>
    rw [List.foldl_append, List.foldl_cons, List.foldl_nil, entries_insertLast, ih,
      ← List.append_assoc, lastOnes_concat]

end OrderedMap

end ResourceQuery
