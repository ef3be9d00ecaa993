import ResourceQuery.Pagination.Pager

/-!
# Sizes of numbered pages

Settings declare page sizes as integers, and a truth value counts as one. The size of a page is
then an integer between one and the largest size of the settings, and the window of a page
starts at an integer.

Headlines:
* **`Settings.IsTyped`**: the sizes of the settings are integers.
* **`PageFields.bounds_of_read`**: the bounds of fields that are accepted.
* **`PageWindow.one_le_size`**, **`size_le_largest`**: the bounds of the size of a page.
* **`PageWindow.offset?_of_integer`**: where the window of a page starts.
* **`PageWindow.IsProper`**: pages that can be asked for.
-/

namespace ResourceQuery

namespace Quantity

/-- Is the quantity an integer, or a truth value that counts as one? -/
def isInteger : Quantity → Bool
  | .whole _ | .truth _ => true
  | .real _ => false

theorem toValue_wholeNumber? {q : Quantity} (h : q.isInteger = true) :
    q.toValue.wholeNumber? = some q.truncate := by
  cases q with
  | real x => cases h
  | _ => rfl

theorem number_of_isInteger {q : Quantity} (h : q.isInteger = true) :
    q.number = (Quantity.whole q.truncate).number := by
  cases q with
  | real x => cases h
  | _ => rfl

theorem isBelow_of_isInteger {a b : Quantity} (ha : a.isInteger = true) (hb : b.isInteger = true) :
    a.isBelow b = decide (a.truncate < b.truncate) := by
  rw [← isBelow_whole]
  unfold isBelow
  rw [number_of_isInteger ha, number_of_isInteger hb]

theorem smaller_eq_or (a b : Quantity) : a.smaller b = a ∨ a.smaller b = b := by
  unfold smaller
  split
  · exact Or.inr rfl
  · exact Or.inl rfl

theorem isInteger_smaller {a b : Quantity} (ha : a.isInteger = true) (hb : b.isInteger = true) :
    (a.smaller b).isInteger = true := by
  rcases smaller_eq_or a b with h | h
  · rw [h, ha]
  · rw [h, hb]

theorem truncate_smaller {a b : Quantity} (ha : a.isInteger = true) (hb : b.isInteger = true) :
    (a.smaller b).truncate = min a.truncate b.truncate := by
  unfold smaller
  rw [isBelow_of_isInteger hb ha]
  by_cases h : b.truncate < a.truncate
  · rw [if_pos (decide_eq_true h)]
    omega
  · rw [if_neg (by simpa using h)]
    omega

theorem scale?_of_isInteger {q : Quantity} (h : q.isInteger = true) (times : Int) :
    q.scale? times = some (.whole (q.truncate * times)) := by
  cases q with
  | real x => cases h
  | _ => rfl

theorem pages?_of_isInteger {q : Quantity} (h : q.isInteger = true) (records : Int) :
    q.pages? records = Number.ceilQuotient records q.truncate.toNat := by
  cases q with
  | real x => cases h
  | _ => rfl

end Quantity

/-- The sizes and the limit of the settings are integers, as settings declare them. -/
structure Settings.IsTyped (settings : Settings) : Prop where
  defaultPageSize : settings.defaultPageSize.isInteger = true
  maxPageSize : settings.maxPageSize.isInteger = true
  defaultKeysetLimit : settings.defaultKeysetLimit.isInteger = true

namespace Settings

variable {settings : Settings}

theorem IsTyped.one_le_default (h : settings.IsTyped) : 1 ≤ settings.defaultPageSize.truncate := by
  have hbelow := settings.one_le_default
  rw [Quantity.isBelow_of_isInteger h.defaultPageSize rfl, decide_eq_false_iff_not] at hbelow
  exact Int.not_lt.mp hbelow

theorem IsTyped.default_le_max (h : settings.IsTyped) :
    settings.defaultPageSize.truncate ≤ settings.maxPageSize.truncate := by
  have hbelow := settings.default_le_max
  rw [Quantity.isBelow_of_isInteger h.maxPageSize h.defaultPageSize,
    decide_eq_false_iff_not] at hbelow
  exact Int.not_lt.mp hbelow

theorem IsTyped.one_le_keyset (h : settings.IsTyped) :
    1 ≤ settings.defaultKeysetLimit.truncate := by
  have hbelow := settings.one_le_keyset
  rw [Quantity.isBelow_of_isInteger h.defaultKeysetLimit rfl, decide_eq_false_iff_not] at hbelow
  exact Int.not_lt.mp hbelow

end Settings

namespace Pagination

/-! ## Bounds of accepted fields -/

theorem blankableField_bound {bound i : Int} {v : Value}
    (h : blankableField bound v = .ok (some i)) : bound ≤ i := by
  unfold blankableField at h
  split at h
  · split at h
    · cases h
    · exact integerField_bound h
  · exact integerField_bound h

/-- Fields within the bounds that are asked of them. -/
structure PageFields.InBounds (f : PageFields) : Prop where
  number : ∀ i, f.number = some i → 1 ≤ i
  size : ∀ i, f.size = some i → 1 ≤ i
  offset : ∀ i, f.offset = some i → 0 ≤ i
  outset : ∀ i, f.outset = some i → 0 ≤ i

namespace PageFields

/-- Reading the fields succeeds exactly if each of them can be read. -/
theorem read_eq_ok_iff {entries : List (Value × Value)} {f : PageFields} :
    read entries = .ok f ↔
      blankableField 1 (fieldValue "number" entries) = .ok f.number ∧
      blankableField 1 (fieldValue "size" entries) = .ok f.size ∧
      blankableField 0 (fieldValue "offset" entries) = .ok f.offset ∧
      blankableField 0 (fieldValue "outset" entries) = .ok f.outset := by
  constructor
  · intro h
    unfold read at h
    simp only at h
    split at h
    · next h₁ h₂ h₃ h₄ =>
      cases h
      exact ⟨h₁, h₂, h₃, h₄⟩
    · cases h
  · rintro ⟨h₁, h₂, h₃, h₄⟩
    simp only [read, h₁, h₂, h₃, h₄]

theorem bounds_of_read {entries : List (Value × Value)} {f : PageFields}
    (h : read entries = .ok f) : f.InBounds := by
  obtain ⟨h₁, h₂, h₃, h₄⟩ := read_eq_ok_iff.mp h
  refine ⟨fun i hi => ?_, fun i hi => ?_, fun i hi => ?_, fun i hi => ?_⟩
  · exact blankableField_bound (hi ▸ h₁)
  · exact blankableField_bound (hi ▸ h₂)
  · exact blankableField_bound (hi ▸ h₃)
  · exact blankableField_bound (hi ▸ h₄)

theorem InBounds.padding_nonneg {f : PageFields} (h : f.InBounds) : 0 ≤ f.padding := by
  unfold padding skipped?
  cases ho : f.offset with
  | some i => exact h.offset i ho
  | none =>
    cases hs : f.outset with
    | some i => exact h.outset i hs
    | none => exact Int.le_refl 0

theorem InBounds.one_le_number {f : PageFields} (h : f.InBounds) : 1 ≤ f.number.getD 1 := by
  cases hn : f.number with
  | some i => exact h.number i hn
  | none => exact Int.le_refl 1

end PageFields

/-! ## The window of a page -/

namespace PageWindow

variable {settings : Settings} {f : PageFields}

/-- The size that is asked for, or else the default one. -/
def askedSize (settings : Settings) (f : PageFields) : Quantity :=
  (f.size.map .whole).getD settings.defaultPageSize

theorem truncate_askedSize (settings : Settings) (f : PageFields) :
    (askedSize settings f).truncate = f.size.getD settings.defaultPageSize.truncate := by
  unfold askedSize
  cases f.size <;> rfl

theorem isInteger_askedSize (h : settings.IsTyped) : (askedSize settings f).isInteger = true := by
  unfold askedSize
  cases f.size with
  | none => exact h.defaultPageSize
  | some i => rfl

theorem one_le_askedSize (h : settings.IsTyped) (hf : f.InBounds) :
    1 ≤ (askedSize settings f).truncate := by
  unfold askedSize
  cases hs : f.size with
  | none => exact h.one_le_default
  | some i => exact hf.size i hs

theorem isInteger_size (h : settings.IsTyped) : (ofFields settings f).size.isInteger = true :=
  Quantity.isInteger_smaller (isInteger_askedSize h) h.maxPageSize

theorem truncate_size (h : settings.IsTyped) :
    (ofFields settings f).size.truncate =
      min (askedSize settings f).truncate settings.maxPageSize.truncate :=
  Quantity.truncate_smaller (isInteger_askedSize h) h.maxPageSize

/-- A page holds at least one record, so its size divides. -/
theorem one_le_size (h : settings.IsTyped) (hf : f.InBounds) :
    1 ≤ (ofFields settings f).size.truncate := by
  have h₁ := one_le_askedSize h hf
  have h₂ := h.one_le_default
  have h₃ := h.default_le_max
  rw [truncate_size h]
  omega

theorem size_le_largest (h : settings.IsTyped) :
    (ofFields settings f).size.truncate ≤ settings.maxPageSize.truncate := by
  rw [truncate_size h]
  omega

/-- The number of records before a page of an integer size. -/
def start (w : PageWindow) : Int := w.size.truncate * (w.number - 1) + w.padding

theorem offset?_of_integer {w : PageWindow} (h : w.size.isInteger = true) :
    w.offset? = some (.whole w.start) := by
  rw [offset?, Quantity.scale?_of_isInteger h]
  rfl

/-- A page of at least one record, with a number from one on and a padding that is not negative. -/
structure IsProper (w : PageWindow) : Prop where
  isInteger_size : w.size.isInteger = true
  one_le_size : 1 ≤ w.size.truncate
  one_le_number : 1 ≤ w.number
  padding_nonneg : 0 ≤ w.padding

/-- The page that is asked for is one. -/
theorem isProper_ofFields (h : settings.IsTyped) (hf : f.InBounds) :
    (ofFields settings f).IsProper :=
  ⟨isInteger_size h, one_le_size h hf, hf.one_le_number, hf.padding_nonneg⟩

theorem IsProper.start_nonneg {w : PageWindow} (h : w.IsProper) : 0 ≤ w.start := by
  have hsize := h.one_le_size
  have hnumber : 0 ≤ w.number - 1 := Int.sub_nonneg.mpr h.one_le_number
  have hprod := Int.mul_nonneg (show 0 ≤ w.size.truncate by omega) hnumber
  have hpadding := h.padding_nonneg
  unfold start
  omega

theorem start_nonneg (h : settings.IsTyped) (hf : f.InBounds) :
    0 ≤ (ofFields settings f).start :=
  (isProper_ofFields h hf).start_nonneg

end PageWindow

end Pagination

end ResourceQuery
