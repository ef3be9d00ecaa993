/-!
# Maps in order of first entry

A table from names to values that remembers in which order its names were first entered.
Entering a name again replaces its value and leaves it in its place.

Headlines:
* **`OrderedMap`**: the table; that no name occurs twice is part of the type.
* **`OrderedMap.keys_insert`**: what entering a name does to the names.
* **`OrderedMap.get?_insert_self`**, **`get?_insert_of_ne`**: what it does to the values.
* **`OrderedMap.entries_ofList`**: a list with distinct names is the table that it makes.
-/

namespace ResourceQuery

namespace OrderedMap

variable {α : Type}

/-- Put a value under a name: in place if the name is there, else at the end. -/
def putEntry (name : String) (value : α) : List (String × α) → List (String × α)
  | [] => [(name, value)]
  | (k, v) :: rest => if k = name then (k, value) :: rest else (k, v) :: putEntry name value rest

/-- The value under a name. -/
def findEntry? (name : String) : List (String × α) → Option α
  | [] => none
  | (k, v) :: rest => if k = name then some v else findEntry? name rest

theorem map_fst_putEntry (name : String) (value : α) (entries : List (String × α)) :
    (putEntry name value entries).map (·.1) =
      if name ∈ entries.map (·.1) then entries.map (·.1) else entries.map (·.1) ++ [name] := by
  induction entries with
  | nil => simp [putEntry]
  | cons e rest ih =>
    obtain ⟨k, v⟩ := e
    by_cases h : k = name
    · simp [putEntry, h]
    · have h' : name ≠ k := fun e => h e.symm
      simp only [putEntry, if_neg h, List.map_cons, ih, List.mem_cons, h', false_or]
      split <;> simp

theorem nodup_putEntry {name : String} {value : α} {entries : List (String × α)}
    (h : (entries.map (·.1)).Nodup) : ((putEntry name value entries).map (·.1)).Nodup := by
  rw [map_fst_putEntry]
  split
  · exact h
  · next hn =>
    rw [List.nodup_append]
    refine ⟨h, by simp, ?_⟩
    intro a ha b hb
    rw [List.mem_singleton] at hb
    rintro rfl
    exact hn (hb ▸ ha)

theorem nodup_filterEntries {p : String × α → Bool} {entries : List (String × α)}
    (h : (entries.map (·.1)).Nodup) : ((entries.filter p).map (·.1)).Nodup :=
  h.sublist (List.filter_sublist.map _)

end OrderedMap

/-- A table from names to values in the order in which the names were first entered. -/
structure OrderedMap (α : Type) where
  entries : List (String × α)
  nodup : (entries.map (·.1)).Nodup

namespace OrderedMap

variable {α : Type}

/-- The table without names. -/
def empty : OrderedMap α := ⟨[], by simp⟩

instance : Inhabited (OrderedMap α) := ⟨empty⟩

/-- Enter a value under a name. -/
def insert (name : String) (value : α) (m : OrderedMap α) : OrderedMap α :=
  ⟨putEntry name value m.entries, nodup_putEntry m.nodup⟩

/-- Take a name out. -/
def erase (name : String) (m : OrderedMap α) : OrderedMap α :=
  ⟨m.entries.filter (·.1 != name), nodup_filterEntries m.nodup⟩

/-- Enter a value under a name, as the last entry even if the name was there before. -/
def insertLast (name : String) (value : α) (m : OrderedMap α) : OrderedMap α :=
  (m.erase name).insert name value

/-- The table of a list of entries, entered one after the other. -/
def ofList (entries : List (String × α)) : OrderedMap α :=
  entries.foldl (fun m e => m.insert e.1 e.2) empty

/-- The names in order. -/
def keys (m : OrderedMap α) : List String := m.entries.map (·.1)

/-- The values in order. -/
def values (m : OrderedMap α) : List α := m.entries.map (·.2)

/-- The value under a name. -/
def get? (m : OrderedMap α) (name : String) : Option α := findEntry? name m.entries

theorem keys_insert (name : String) (value : α) (m : OrderedMap α) :
    (m.insert name value).keys = if name ∈ m.keys then m.keys else m.keys ++ [name] :=
  map_fst_putEntry name value m.entries

theorem get?_insert_self (name : String) (value : α) (m : OrderedMap α) :
    (m.insert name value).get? name = some value := by
  obtain ⟨entries, _⟩ := m
  simp only [get?, insert]
  induction entries with
  | nil => simp [putEntry, findEntry?]
  | cons e rest ih =>
    by_cases h : e.1 = name
    · simp [putEntry, findEntry?, h]
    · simp_all [putEntry, findEntry?]

theorem get?_insert_of_ne {name other : String} (h : other ≠ name) (value : α)
    (m : OrderedMap α) : (m.insert name value).get? other = m.get? other := by
  obtain ⟨entries, _⟩ := m
  simp only [get?, insert]
  induction entries with
  | nil => simp [putEntry, findEntry?, Ne.symm h]
  | cons e rest ih =>
    by_cases hk : e.1 = name
    · simp [putEntry, findEntry?, hk, Ne.symm h]
    · by_cases ho : e.1 = other <;> simp_all [putEntry, findEntry?]

theorem putEntry_of_not_mem {name : String} {value : α} {entries : List (String × α)}
    (h : name ∉ entries.map (·.1)) : putEntry name value entries = entries ++ [(name, value)] := by
  induction entries with
  | nil => rfl
  | cons e rest ih =>
    obtain ⟨k, v⟩ := e
    simp only [List.map_cons, List.mem_cons, not_or] at h
    rw [putEntry, if_neg (Ne.symm h.1), ih h.2, List.cons_append]

private theorem entries_foldl_insert (entries : List (String × α)) (m : OrderedMap α)
    (h : (m.entries.map (·.1) ++ entries.map (·.1)).Nodup) :
    (entries.foldl (fun m e => m.insert e.1 e.2) m).entries = m.entries ++ entries := by
  induction entries generalizing m with
  | nil => simp
  | cons e rest ih =>
    have hfresh : e.1 ∉ m.entries.map (·.1) := by
      rw [List.nodup_append] at h
      intro hmem
      exact h.2.2 e.1 hmem e.1 (by simp) rfl
    have hentries : (m.insert e.1 e.2).entries = m.entries ++ [e] := putEntry_of_not_mem hfresh
    rw [List.foldl_cons, ih, hentries, List.append_assoc, List.singleton_append]
    rw [hentries]
    simpa using h

theorem entries_ofList {entries : List (String × α)} (h : (entries.map (·.1)).Nodup) :
    (ofList entries).entries = entries := by
  have := entries_foldl_insert entries empty (by simpa [empty] using h)
  simpa [ofList, empty] using this

end OrderedMap

end ResourceQuery
