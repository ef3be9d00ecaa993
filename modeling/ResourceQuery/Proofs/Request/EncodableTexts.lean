import ResourceQuery.Proofs.Value.Lookup
import ResourceQuery.Request.QueryString

/-!
# Parameters that can be written

A query string is made of the names and texts of its pairs, and any of them may be without an
encoded form. Names are composed of keys, so that such a key spoils every pair below it. Where no
key and no text has surrogates on its own, everything can be written.

Headlines:
* **`Value.isEncodable`**, **`areEncodable`**: values and entries without such keys and texts.
* **`QueryString.looseIn?_eq_none`**: they can be written.
* **`QueryString.looseInEntries?_put_congr`**: of two values in one place only what stands in the
  way counts.
-/

namespace ResourceQuery

/-- Is the value a text with surrogates on their own? -/
def Value.isLoose : Value → Bool
  | .loose _ => true
  | _ => false

mutual

/-- Does a value write texts of characters only, under keys of characters only? -/
def Value.isEncodable : Value → Bool
  | .loose _ => false
  | .list items | .tuple items => items.all (!·.isLoose)
  | .map entries => areEncodable entries
  | _ => true

/-- Do all entries have keys of characters only, and write texts of characters only? -/
def areEncodable : List (Value × Value) → Bool
  | [] => true
  | (key, v) :: rest => !key.isLoose && v.isEncodable && areEncodable rest

end

theorem pointsOf_append (s t : String) : pointsOf (s ++ t) = pointsOf s ++ pointsOf t := by
  simp [pointsOf]

theorem Value.points_eq {v : Value} (h : v.isLoose = false) : v.points = pointsOf v.plain := by
  cases v with
  | loose t => cases h
  | _ => rfl

namespace QueryString

/-- A text of characters is not in the way: only the name above it can be. -/
theorem looseOf?_right (name : List Nat) (text : String) :
    looseOf? name (pointsOf text) = LooseText.ofPoints? name := by
  rw [looseOf?, LooseText.ofPoints?_pointsOf, Option.or_none]

theorem looseOf?_pointsOf (name text : String) : looseOf? (pointsOf name) (pointsOf text) = none := by
  rw [looseOf?_right, LooseText.ofPoints?_pointsOf]

/-- The name of a key is composed of characters if the key is. -/
theorem nestedPoints_pointsOf {key : Value} (h : key.isLoose = false) (parent : String) :
    nestedPoints (pointsOf parent) key = pointsOf (nestedName parent key) := by
  have hempty : (pointsOf parent).isEmpty = true ↔ parent = "" := by
    simp [pointsOf]
  rw [nestedPoints, nestedName, Value.points_eq h]
  by_cases hparent : parent = ""
  · rw [if_pos (hempty.mpr hparent), if_pos hparent]
  · rw [if_neg fun hnil => hparent (hempty.mp hnil), if_neg hparent]
    simp only [pointsOf_append, List.append_assoc]

theorem looseOf?_points {v : Value} (h : v.isLoose = false) (name : String) :
    looseOf? (pointsOf name) v.points = none := by
  rw [Value.points_eq h, looseOf?_pointsOf]

mutual

theorem looseInValue?_eq_none {v : Value} (h : v.isEncodable = true) (name : String) :
    looseInValue? (pointsOf name) v = none := by
  cases v with
  | loose t => simp [Value.isEncodable] at h
  | map entries =>
    rw [Value.isEncodable] at h
    rw [looseInValue?]
    exact looseInEntries?_eq_none h name
  | list items | tuple items =>
    rw [Value.isEncodable, List.all_eq_true] at h
    rw [looseInValue?, List.findSome?_eq_none_iff]
    intro item hitem
    rw [← pointsOf_append]
    exact looseOf?_points (by simpa using h item hitem) _
  | null => rw [looseInValue?]
  | _ => exact looseOf?_points rfl name

theorem looseInEntries?_eq_none {entries : List (Value × Value)} (h : areEncodable entries = true)
    (parent : String) : looseInEntries? (pointsOf parent) entries = none := by
  cases entries with
  | nil => rw [looseInEntries?]
  | cons e rest =>
    obtain ⟨key, v⟩ := e
    simp only [areEncodable, Bool.and_eq_true, Bool.not_eq_true'] at h
    rw [looseInEntries?, nestedPoints_pointsOf h.1.1, looseInValue?_eq_none h.1.2,
      looseInEntries?_eq_none h.2]
    rfl

end

/-- **What has an encoded form** as a whole: parameters in which all keys and texts are made of
characters. -/
theorem looseIn?_eq_none {params : List (Value × Value)} (h : areEncodable params = true) :
    looseIn? params = none :=
  looseInEntries?_eq_none h ""

theorem areEncodable_put {v : Value} (hv : v.isEncodable = true) (name : String)
    {entries : List (Value × Value)} (h : areEncodable entries = true) :
    areEncodable (Value.put (.str name) v entries) = true := by
  induction entries with
  | nil => simp [Value.put, areEncodable, Value.isLoose, hv]
  | cons e rest ih =>
    obtain ⟨key, w⟩ := e
    simp only [areEncodable, Bool.and_eq_true, Bool.not_eq_true'] at h
    rw [Value.put]
    split
    · simp [areEncodable, h, hv]
    · simp [areEncodable, h, ih h.2]

theorem isEncodable_of_lookup? {name : String} {v : Value} {entries : List (Value × Value)}
    (h : areEncodable entries = true) (hv : Value.lookup? name entries = some v) :
    v.isEncodable = true := by
  induction entries with
  | nil => cases hv
  | cons e rest ih =>
    obtain ⟨key, w⟩ := e
    simp only [areEncodable, Bool.and_eq_true] at h
    rw [Value.lookup?] at hv
    split at hv
    · cases hv
      exact h.1.2
    · exact ih h.2 hv

/-! ## Another value in its place -/

/-- The entries stand in the way one after the other. -/
theorem looseInEntries?_eq_head? (parent : List Nat) (entries : List (Value × Value)) :
    looseInEntries? parent entries =
      (entries.flatMap fun e => (looseInValue? (nestedPoints parent e.1) e.2).toList).head? := by
  induction entries with
  | nil => rfl
  | cons e rest ih =>
    obtain ⟨key, v⟩ := e
    rw [looseInEntries?, ih, List.flatMap_cons]
    cases looseInValue? (nestedPoints parent key) v <;> rfl

/-- A value is in the way where another one in its place is. -/
theorem looseInEntries?_put {name : String} {v w : Value} {entries : List (Value × Value)}
    (hv : Value.lookup? name entries = some v)
    (h : ∀ parent, looseInValue? parent w = looseInValue? parent v) (parent : List Nat) :
    looseInEntries? parent (Value.put (.str name) w entries) = looseInEntries? parent entries := by
  rw [looseInEntries?_eq_head?, looseInEntries?_eq_head?,
    Value.flatMap_put hv fun key => by rw [h]]

/-- Of two values in one place only what stands in the way counts. -/
theorem looseInEntries?_put_congr {name : String} {v w : Value}
    (h : ∀ parent, looseInValue? parent w = looseInValue? parent v) (parent : List Nat)
    (entries : List (Value × Value)) :
    looseInEntries? parent (Value.put (.str name) w entries) =
      looseInEntries? parent (Value.put (.str name) v entries) := by
  rw [← Value.put_put name v w]
  exact looseInEntries?_put (Value.lookup?_put_self name v entries) h parent

end QueryString

end ResourceQuery
