import ResourceQuery.Value.Basic

/-!
# Looking entries up

A map is read by texts. Putting a value under a text changes what is found under that text and
nothing else.

Headlines:
* **`Value.same_of_text?`**, **`Value.same_str_iff`**: texts are equal as such, and what equals one.
* **`Value.lookup?_put_self`**, **`Value.lookup?_put_of_ne`**: what is found after a value is put.
* **`Value.key_of_mem_put`**, **`Value.pairwise_put`**: the keys after a value is put.
* **`Value.put_put`**, **`Value.put_of_lookup?_eq_none`**: the entries after a value is put.
* **`Value.flatMap_put`**: they read the same if the two values in one place do.
-/

namespace ResourceQuery.Value

theorem exists_of_text? {v : Value} {s : String} (h : v.text? = some s) :
    v = .str s ∨ ∃ d : Direction, v = .direction d ∧ s = d.text := by
  cases v <;> simp_all [text?]

theorem same_of_text? {v w : Value} {s t : String} (hv : v.text? = some s)
    (hw : w.text? = some t) : v.same w = decide (s = t) := by
  rcases exists_of_text? hv with rfl | ⟨d, rfl, rfl⟩ <;>
    rcases exists_of_text? hw with rfl | ⟨e, rfl, rfl⟩ <;>
    simp [same, sameScalar, text?] <;> rfl

/-- **What equals a text**: a value that is this text. -/
theorem same_str_iff (v : Value) (s : String) : same v (.str s) = true ↔ v.text? = some s := by
  have hscalar : sameScalar v (.str s) = true ↔ v.text? = some s := by
    unfold sameScalar
    cases h : v.text? with
    | none => simp [sameNumber, number?]
    | some t => simp [text?]
  cases v <;> simpa [same] using hscalar

theorem str_same_iff (v : Value) (s : String) : same (.str s) v = true ↔ v.text? = some s := by
  have hscalar : sameScalar (.str s) v = true ↔ v.text? = some s := by
    unfold sameScalar
    cases h : v.text? with
    | none => simp [text?, sameNumber, number?]
    | some t =>
      simp only [text?, beq_iff_eq, Option.some.injEq]
      exact eq_comm
  cases v <;> simpa [same] using hscalar

/-- A value that is put under a text is found there. -/
theorem lookup?_put_self (name : String) (v : Value) (entries : List (Value × Value)) :
    lookup? name (put (.str name) v entries) = some v := by
  induction entries with
  | nil => simp [put, lookup?, text?]
  | cons e rest ih =>
    obtain ⟨k, w⟩ := e
    by_cases h : k.text? = some name
    · have hsame : same k (.str name) = true := (same_str_iff k name).mpr h
      simp [put, lookup?, hsame, h]
    · have hsame : ¬ same k (.str name) = true := fun hs => h ((same_str_iff k name).mp hs)
      simp [put, lookup?, hsame, h, ih]

/-- What is found under another text is as before. -/
theorem lookup?_put_of_ne {name key : String} (hne : name ≠ key) (v : Value)
    (entries : List (Value × Value)) :
    lookup? name (put (.str key) v entries) = lookup? name entries := by
  induction entries with
  | nil => simp [put, lookup?, text?, hne.symm]
  | cons e rest ih =>
    obtain ⟨k, w⟩ := e
    by_cases h : k.text? = some key
    · have hsame : same k (.str key) = true := (same_str_iff k key).mpr h
      have hother : ¬ k.text? = some name := by
        rw [h]
        exact fun heq => hne (Option.some.inj heq).symm
      simp [put, lookup?, hsame, hother]
    · have hsame : ¬ same k (.str key) = true := fun hs => h ((same_str_iff k key).mp hs)
      by_cases hname : k.text? = some name
      · simp [put, lookup?, hsame, hname]
      · simp [put, lookup?, hsame, hname, ih]

/-- Of two values put under a text the later one counts. -/
theorem put_put (name : String) (v w : Value) (entries : List (Value × Value)) :
    put (.str name) w (put (.str name) v entries) = put (.str name) w entries := by
  induction entries with
  | nil =>
    have hsame : same (.str name) (.str name) = true := (same_str_iff _ name).mpr rfl
    simp [put, hsame]
  | cons e rest ih =>
    obtain ⟨k, u⟩ := e
    by_cases hsame : same k (.str name) = true
    · simp [put, hsame]
    · simp [put, hsame, ih]

/-- A value put under a new text comes last. -/
theorem put_of_lookup?_eq_none {name : String} {entries : List (Value × Value)}
    (h : lookup? name entries = none) (v : Value) :
    put (.str name) v entries = entries ++ [(.str name, v)] := by
  induction entries with
  | nil => rfl
  | cons e rest ih =>
    obtain ⟨k, u⟩ := e
    by_cases hname : k.text? = some name
    · simp [lookup?, hname] at h
    · have hsame : ¬ same k (.str name) = true := fun hs => hname ((same_str_iff k name).mp hs)
      rw [lookup?, if_neg hname] at h
      rw [put, if_neg hsame, ih h, List.cons_append]

/-- Entries read one by one are read the same with another value in one place, if it is read like
the one that was there. -/
theorem flatMap_put {α : Type} {read : Value × Value → List α} {name : String} {v w : Value}
    {entries : List (Value × Value)} (hv : lookup? name entries = some v)
    (h : ∀ key, read (key, w) = read (key, v)) :
    (put (.str name) w entries).flatMap read = entries.flatMap read := by
  induction entries with
  | nil => cases hv
  | cons e rest ih =>
    obtain ⟨k, u⟩ := e
    by_cases hk : k.text? = some name
    · rw [lookup?, if_pos hk] at hv
      cases hv
      rw [put, if_pos ((same_str_iff k name).mpr hk), List.flatMap_cons, List.flatMap_cons, h]
    · rw [lookup?, if_neg hk] at hv
      rw [put, if_neg fun hs => hk ((same_str_iff k name).mp hs), List.flatMap_cons,
        List.flatMap_cons, ih hv]

theorem lookup?_append_of_eq_none {name : String} {entries : List (Value × Value)}
    (h : lookup? name entries = none) (more : List (Value × Value)) :
    lookup? name (entries ++ more) = lookup? name more := by
  induction entries with
  | nil => rfl
  | cons e rest ih =>
    obtain ⟨k, u⟩ := e
    by_cases hname : k.text? = some name
    · simp [lookup?, hname] at h
    · rw [lookup?, if_neg hname] at h
      rw [List.cons_append, lookup?, if_neg hname, ih h]

/-- The keys after a value is put: those before, and the one under which it is put. -/
theorem key_of_mem_put {key v : Value} {entries : List (Value × Value)} {e : Value × Value}
    (h : e ∈ put key v entries) : e.1 = key ∨ ∃ old ∈ entries, old.1 = e.1 := by
  induction entries with
  | nil =>
    rw [List.mem_singleton.mp h]
    exact Or.inl rfl
  | cons first rest ih =>
    obtain ⟨k, u⟩ := first
    rw [put] at h
    split at h
    · rcases List.mem_cons.mp h with rfl | h
      · exact Or.inr ⟨(k, u), List.mem_cons_self, rfl⟩
      · exact Or.inr ⟨e, List.mem_cons_of_mem _ h, rfl⟩
    · rcases List.mem_cons.mp h with rfl | h
      · exact Or.inr ⟨(k, u), List.mem_cons_self, rfl⟩
      · rcases ih h with hkey | ⟨old, hold, hkey⟩
        · exact Or.inl hkey
        · exact Or.inr ⟨old, List.mem_cons_of_mem _ hold, hkey⟩

/-- Keys that differ still do after a value is put under a text. -/
theorem pairwise_put (name : String) (v : Value) {entries : List (Value × Value)}
    (h : entries.Pairwise fun a b => a.1 ≠ b.1) :
    (put (.str name) v entries).Pairwise fun a b => a.1 ≠ b.1 := by
  induction entries with
  | nil => exact List.pairwise_singleton _ _
  | cons first rest ih =>
    obtain ⟨k, u⟩ := first
    rw [List.pairwise_cons] at h
    rw [put]
    split
    · exact List.pairwise_cons.mpr h
    · next hsame =>
      refine List.pairwise_cons.mpr ⟨fun e he => ?_, ih h.2⟩
      rcases key_of_mem_put he with hkey | ⟨old, hold, hkey⟩
      · rintro rfl
        exact hsame ((same_str_iff _ name).mpr (by rw [hkey]; rfl))
      · exact hkey ▸ h.1 old hold

/-- Nothing is found under a text that no key counts as. -/
theorem lookup?_eq_none {name : String} {entries : List (Value × Value)}
    (h : ∀ e ∈ entries, e.1.text? ≠ some name) : lookup? name entries = none := by
  induction entries with
  | nil => rfl
  | cons e rest ih =>
    rw [List.forall_mem_cons] at h
    rw [lookup?, if_neg h.1, ih h.2]

/-- What is found is the value of an entry. -/
theorem exists_mem_of_lookup? {name : String} {v : Value} {entries : List (Value × Value)}
    (h : lookup? name entries = some v) : ∃ key, (key, v) ∈ entries := by
  induction entries with
  | nil => cases h
  | cons e rest ih =>
    obtain ⟨k, w⟩ := e
    rw [lookup?] at h
    split at h
    · cases h
      exact ⟨k, List.mem_cons_self⟩
    · obtain ⟨key, hkey⟩ := ih h
      exact ⟨key, List.mem_cons_of_mem _ hkey⟩

/-- A map into which a value is put is not empty. -/
theorem isTruthy_map_put (key v : Value) (entries : List (Value × Value)) :
    (Value.map (put key v entries)).isTruthy = true := by
  cases entries with
  | nil => rfl
  | cons e rest =>
    obtain ⟨k, w⟩ := e
    rw [put]
    split <;> rfl

end ResourceQuery.Value
