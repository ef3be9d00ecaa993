import ResourceQuery.OrderClause
import ResourceQuery.Proofs.Value.Lookup

/-!
# How a declared ordering is read

The spellings of an ordering overlap: a tuple of two is one clause or a nesting of two orderings, and
a direction is itself a text. Whatever is nested in whatever, though, what is read off a nesting is
what is read off its items, one after the other, and the only things that cannot be read are the
ones that a reader of the declaration would point at.

Headlines:
* **`IsPair`**: the tuples that are one clause.
* **`Value.nesting_induction`**: induction on how lists and tuples nest.
* **`Reached`**, **`Unreadable`**: the values that reading comes to, and those that it stops at.
* **`normalizeAll_eq_ok_iff`**: the items of a nesting are read one after the other.
* **`judged_normalizeOrder`**: an ordering is refused exactly if reading comes to an unreadable value.
* **`normalizeOrder_again`**: an ordering written out in full is read as it stands.
* **`normalizeOrder_flattens`**: all of this at once.
-/

namespace ResourceQuery

/-! ## Values that nest orderings -/

/-- A tuple of a name and a direction. -/
def IsPair (items : List Value) : Prop :=
  ∃ name direction, items = [name, direction] ∧ name.spelling?.isSome ∧
    (Direction.read? direction).isSome

/-- Induction on how lists and tuples nest. -/
theorem Value.nesting_induction {motive : Value → Prop}
    (list : ∀ items, (∀ item ∈ items, motive item) → motive (.list items))
    (tuple : ∀ items, (∀ item ∈ items, motive item) → motive (.tuple items))
    (other : ∀ v, (∀ items, v ≠ .list items) → (∀ items, v ≠ .tuple items) → motive v)
    (v : Value) : motive v := by
  cases v with
  | list items => exact list items fun item _ => nesting_induction list tuple other item
  | tuple items => exact tuple items fun item _ => nesting_induction list tuple other item
  | _ => exact other _ nofun nofun
termination_by v

/-- The values that reading an ordering comes to. A pair is not gone into. -/
inductive Reached : Value → Value → Prop
  | here (v : Value) : Reached v v
  | listed {items : List Value} {item v : Value} :
    item ∈ items → Reached item v → Reached (.list items) v
  | nested {items : List Value} {item v : Value} :
    ¬ IsPair items → item ∈ items → Reached item v → Reached (.tuple items) v

/-- Is this a text, a map, a list or a tuple? -/
def IsSpelling (v : Value) : Prop :=
  v.spelling?.isSome ∨ (∃ entries, v = .map entries) ∨ (∃ items, v = .list items) ∨
    ∃ items, v = .tuple items

/-- The values that reading an ordering stops at: maps with a value that is no direction, and
whatever is neither a text, a map, a list nor a tuple. -/
inductive Unreadable : Value → Prop
  | direction {entries : List (Value × Value)} {entry : Value × Value} :
    entry ∈ entries → Direction.read? entry.2 = none → Unreadable (.map entries)
  | shape {v : Value} : ¬ IsSpelling v → Unreadable v

theorem unreadable_map_iff {entries : List (Value × Value)} :
    Unreadable (.map entries) ↔ ∃ entry ∈ entries, Direction.read? entry.2 = none := by
  constructor
  · rintro (⟨hmem, hnone⟩ | hshape)
    · exact ⟨_, hmem, hnone⟩
    · exact absurd (Or.inr (Or.inl ⟨entries, rfl⟩)) hshape
  · rintro ⟨entry, hmem, hnone⟩
    exact .direction hmem hnone

/-! ## Pairs -/

theorem pairClause?_of_text {name direction : Value} {s : String} {d : Direction}
    (hname : name.spelling? = some s) (hdirection : Direction.read? direction = some d) :
    pairClause? [name, direction] = some ⟨s, d⟩ := by
  simp [pairClause?, hname, hdirection]

theorem isPair_of_pairClause? {items : List Value} {clause : OrderClause}
    (h : pairClause? items = some clause) : IsPair items := by
  unfold pairClause? at h
  split at h
  · next name direction =>
    refine ⟨name, direction, rfl, ?_⟩
    cases hname : name.spelling? <;> cases hdirection : Direction.read? direction <;>
      simp_all
  · cases h

theorem normalizeOrder_pair {name direction : Value} {s : String} {d : Direction}
    (hname : name.spelling? = some s) (hdirection : Direction.read? direction = some d) :
    normalizeOrder (.tuple [name, direction]) = .ok [⟨s, d⟩] := by
  rw [normalizeOrder, pairClause?_of_text hname hdirection]

theorem exists_clause_of_isPair {items : List Value} (h : IsPair items) :
    ∃ clause, normalizeOrder (.tuple items) = .ok [clause] := by
  obtain ⟨name, direction, rfl, hname, hdirection⟩ := h
  obtain ⟨s, hname⟩ := Option.isSome_iff_exists.mp hname
  obtain ⟨d, hdirection⟩ := Option.isSome_iff_exists.mp hdirection
  exact ⟨_, normalizeOrder_pair hname hdirection⟩

theorem normalizeOrder_list (items : List Value) :
    normalizeOrder (.list items) = normalizeAll items := by
  rw [normalizeOrder]

theorem normalizeOrder_nested {items : List Value} (h : ¬ IsPair items) :
    normalizeOrder (.tuple items) = normalizeAll items := by
  cases hpair : pairClause? items with
  | some clause => exact absurd (isPair_of_pairClause? hpair) h
  | none => rw [normalizeOrder, hpair]

/-! ## Reading one after the other -/

/-- **The items of a nesting** are read one after the other. -/
theorem normalizeAll_eq (items : List Value) :
    normalizeAll items = (items.mapM normalizeOrder).map List.flatten := by
  induction items with
  | nil =>
    rw [normalizeAll]
    rfl
  | cons item items ih =>
    rw [normalizeAll, List.mapM_cons, ih]
    cases normalizeOrder item <;> cases items.mapM normalizeOrder <;> rfl

/-- The clause of an entry of a map. -/
def clauseOfEntry (entry : Value × Value) : Except QueryError OrderClause :=
  (declaredDirection entry.2).map fun direction => ⟨entry.1.plain, direction⟩

/-- **The entries of a map** are read one after the other, each as one clause. -/
theorem clausesOfMap_eq (entries : List (Value × Value)) :
    clausesOfMap entries = entries.mapM clauseOfEntry := by
  induction entries with
  | nil =>
    rw [clausesOfMap]
    rfl
  | cons entry entries ih =>
    obtain ⟨key, v⟩ := entry
    rw [clausesOfMap, List.mapM_cons, ih, clauseOfEntry]
    cases declaredDirection v <;> cases entries.mapM clauseOfEntry <;> rfl

/-! ## What is refused -/

/-- A reading that succeeds unless something is wrong, and refuses the declaration then. -/
structure Judged {α : Type} (reading : Except QueryError α) (wrong : Prop) : Prop where
  refused : wrong → ∃ fault, reading = .error (.misconfigured fault)
  read : ¬ wrong → ∃ a, reading = .ok a

namespace Judged

variable {α β : Type} {reading : Except QueryError α} {wrong : Prop}

theorem congr {wrong' : Prop} (h : Judged reading wrong) (hiff : wrong ↔ wrong') :
    Judged reading wrong' :=
  ⟨fun hwrong => h.refused (hiff.mpr hwrong), fun hright => h.read fun hwrong =>
    hright (hiff.mp hwrong)⟩

theorem map (h : Judged reading wrong) (f : α → β) : Judged (reading.map f) wrong := by
  constructor
  · intro hwrong
    obtain ⟨fault, rfl⟩ := h.refused hwrong
    exact ⟨fault, rfl⟩
  · intro hright
    obtain ⟨a, rfl⟩ := h.read hright
    exact ⟨f a, rfl⟩

/-- Readings one after the other are refused if something is wrong with any of them. -/
theorem mapM {f : α → Except QueryError β} {wrongAt : α → Prop} {xs : List α}
    (h : ∀ x ∈ xs, Judged (f x) (wrongAt x)) : Judged (xs.mapM f) (∃ x ∈ xs, wrongAt x) := by
  induction xs with
  | nil => exact ⟨nofun, fun _ => ⟨[], rfl⟩⟩
  | cons x xs ih =>
    rw [List.forall_mem_cons] at h
    have hrest := ih h.2
    rw [List.mapM_cons]
    by_cases hx : wrongAt x
    · obtain ⟨fault, hfault⟩ := h.1.refused hx
      rw [hfault]
      exact ⟨fun _ => ⟨fault, rfl⟩, fun hright => absurd ⟨x, List.mem_cons_self, hx⟩ hright⟩
    · obtain ⟨first, hfirst⟩ := h.1.read hx
      rw [hfirst]
      have hiff : (∃ y ∈ xs, wrongAt y) ↔ ∃ y ∈ x :: xs, wrongAt y := by simp [hx]
      refine Judged.congr ?_ hiff
      cases hxs : xs.mapM f <;> (rw [hxs] at hrest; exact hrest.map (first :: ·))

theorem refused_iff (h : Judged reading wrong) :
    (∃ fault, reading = .error (.misconfigured fault)) ↔ wrong := by
  refine ⟨?_, h.refused⟩
  rintro ⟨fault, hfault⟩
  refine Classical.byContradiction fun hwrong => ?_
  obtain ⟨a, ha⟩ := h.read hwrong
  cases hfault.symm.trans ha

end Judged

theorem judged_declaredDirection (v : Value) :
    Judged (declaredDirection v) (Direction.read? v = none) := by
  unfold declaredDirection
  cases Direction.read? v with
  | none => exact ⟨fun _ => ⟨_, rfl⟩, fun h => absurd rfl h⟩
  | some d => exact ⟨nofun, fun _ => ⟨d, rfl⟩⟩

theorem judged_clausesOfMap (entries : List (Value × Value)) :
    Judged (clausesOfMap entries) (∃ entry ∈ entries, Direction.read? entry.2 = none) := by
  rw [clausesOfMap_eq]
  exact Judged.mapM fun entry _ => (judged_declaredDirection entry.2).map _

theorem judged_normalizeAll {items : List Value} {wrong : Value → Prop}
    (h : ∀ item ∈ items, Judged (normalizeOrder item) (wrong item)) :
    Judged (normalizeAll items) (∃ item ∈ items, wrong item) := by
  rw [normalizeAll_eq]
  exact (Judged.mapM h).map List.flatten

/-- Does reading come to something unreadable? -/
def Misspelt (v : Value) : Prop := ∃ w, Reached v w ∧ Unreadable w

theorem misspelt_list_iff {items : List Value} :
    Misspelt (.list items) ↔ ∃ item ∈ items, Misspelt item := by
  constructor
  · rintro ⟨w, hreached, hw⟩
    cases hreached with
    | here =>
      cases hw with
      | shape h => exact absurd (Or.inr (Or.inr (Or.inl ⟨items, rfl⟩))) h
    | listed hmem h => exact ⟨_, hmem, w, h, hw⟩
  · rintro ⟨item, hmem, w, h, hw⟩
    exact ⟨w, .listed hmem h, hw⟩

theorem misspelt_tuple_iff {items : List Value} :
    Misspelt (.tuple items) ↔ ¬ IsPair items ∧ ∃ item ∈ items, Misspelt item := by
  constructor
  · rintro ⟨w, hreached, hw⟩
    cases hreached with
    | here =>
      cases hw with
      | shape h => exact absurd (Or.inr (Or.inr (Or.inr ⟨items, rfl⟩))) h
    | nested hpair hmem h => exact ⟨hpair, _, hmem, w, h, hw⟩
  · rintro ⟨hpair, item, hmem, w, h, hw⟩
    exact ⟨w, .nested hpair hmem h, hw⟩

/-- What is neither a list nor a tuple is misspelt only if it is unreadable itself. -/
theorem misspelt_iff_unreadable {v : Value} (hlist : ∀ items, v ≠ .list items)
    (htuple : ∀ items, v ≠ .tuple items) : Misspelt v ↔ Unreadable v := by
  constructor
  · rintro ⟨w, hreached, hw⟩
    cases hreached with
    | here => exact hw
    | listed => exact absurd rfl (hlist _)
    | nested => exact absurd rfl (htuple _)
  · exact fun h => ⟨v, .here v, h⟩

theorem judged_of_not_isSpelling {v : Value} (h : ¬ IsSpelling v) :
    Judged (normalizeOrder v) (Unreadable v) := by
  refine ⟨fun _ => ⟨.unreadableOrdering v, ?_⟩, fun hreadable => absurd (.shape h) hreadable⟩
  cases v with
  | str | direction | loose => exact absurd (Or.inl rfl) h
  | map => exact absurd (Or.inr (Or.inl ⟨_, rfl⟩)) h
  | list => exact absurd (Or.inr (Or.inr (Or.inl ⟨_, rfl⟩))) h
  | tuple => exact absurd (Or.inr (Or.inr (Or.inr ⟨_, rfl⟩))) h
  | _ => rw [normalizeOrder] <;> nofun

theorem judged_of_text {v : Value} {s : String} (h : v.spelling? = some s) :
    Judged (normalizeOrder v) (Unreadable v) := by
  have hreadable : ¬ Unreadable v := by
    rintro (⟨-, -⟩ | hshape)
    · cases h
    · exact hshape (Or.inl (h ▸ rfl))
  refine ⟨fun hwrong => absurd hwrong hreadable, fun _ => ?_⟩
  cases v with
  | str name => exact ⟨[⟨name, .asc⟩], by rw [normalizeOrder]⟩
  | direction d => exact ⟨[⟨d.text, .asc⟩], by rw [normalizeOrder]⟩
  | loose t => exact ⟨[⟨t.shown, .asc⟩], by rw [normalizeOrder]⟩
  | _ => cases h

/-- **An ordering is refused** exactly if reading it comes to an unreadable value. -/
theorem judged_normalizeOrder (v : Value) : Judged (normalizeOrder v) (Misspelt v) := by
  induction v using Value.nesting_induction with
  | list items ih =>
    rw [normalizeOrder_list]
    exact (judged_normalizeAll ih).congr misspelt_list_iff.symm
  | tuple items ih =>
    by_cases hpair : IsPair items
    · obtain ⟨clause, hclause⟩ := exists_clause_of_isPair hpair
      exact ⟨fun h => absurd hpair (misspelt_tuple_iff.mp h).1, fun _ => ⟨_, hclause⟩⟩
    · rw [normalizeOrder_nested hpair]
      exact (judged_normalizeAll ih).congr (by rw [misspelt_tuple_iff, and_iff_right hpair])
  | other v hlist htuple =>
    refine Judged.congr ?_ (misspelt_iff_unreadable hlist htuple).symm
    by_cases hspelling : IsSpelling v
    · rcases hspelling with htext | ⟨entries, rfl⟩ | ⟨items, rfl⟩ | ⟨items, rfl⟩
      · obtain ⟨s, hs⟩ := Option.isSome_iff_exists.mp htext
        exact judged_of_text hs
      · rw [normalizeOrder]
        exact (judged_clausesOfMap entries).congr unreadable_map_iff.symm
      · exact absurd rfl (hlist items)
      · exact absurd rfl (htuple items)
    · exact judged_of_not_isSpelling hspelling

/-! ## Reading again -/

namespace Value

/-- What equals a text is that text. -/
theorem text?_of_same {v w : Value} {s : String} (h : v.same w = true) (hw : w.text? = some s) :
    v.text? = some s := by
  have hscalar : sameScalar v w = true := by
    rcases exists_of_text? hw with rfl | ⟨d, rfl, rfl⟩ <;> cases v <;> simpa [same] using h
  unfold sameScalar at hscalar
  cases hv : v.text? with
  | none =>
    have hnumber : w.number? = none := by
      rcases exists_of_text? hw with rfl | ⟨d, rfl, rfl⟩ <;> rfl
    simp [hv, sameNumber, hnumber] at hscalar
  | some t => simpa [hv, hw] using hscalar

/-- What equals a tuple is a tuple of equal items. -/
theorem exists_of_same_tuple {v : Value} {ys : List Value} (h : v.same (.tuple ys) = true) :
    ∃ xs, v = .tuple xs ∧ sameItems xs ys = true := by
  cases v with
  | tuple xs => exact ⟨xs, rfl, by simpa [same] using h⟩
  | _ => simp [same, sameScalar, text?, sameNumber, number?] at h

theorem exists_of_sameItems_cons {xs ys : List Value} {y : Value}
    (h : sameItems xs (y :: ys) = true) :
    ∃ x rest, xs = x :: rest ∧ x.same y = true ∧ sameItems rest ys = true := by
  cases xs with
  | nil => simp [sameItems] at h
  | cons x rest => exact ⟨x, rest, rfl, by simpa [sameItems] using h⟩

end Value

open Value

/-- What equals a clause is a pair of its name and direction. -/
theorem OrderClause.exists_of_same_toValue {clause : OrderClause} {v : Value}
    (h : v.same clause.toValue = true) :
    ∃ name direction, v = .tuple [name, direction] ∧ name.spelling? = some clause.name ∧
      Direction.read? direction = some clause.direction := by
  obtain ⟨items, rfl, hitems⟩ := exists_of_same_tuple h
  obtain ⟨name, rest, rfl, hname, hrest⟩ := exists_of_sameItems_cons hitems
  obtain ⟨direction, rest, rfl, hdirection, hrest⟩ := exists_of_sameItems_cons hrest
  cases rest with
  | cons => simp [sameItems] at hrest
  | nil =>
    refine ⟨name, direction, rfl, spelling?_of_text? (text?_of_same hname rfl), ?_⟩
    rw [Direction.read?, text?_of_same hdirection rfl]
    exact Direction.ofText?_text clause.direction

/-- Clauses written out in full. -/
def OrderClause.written (clauses : List OrderClause) : Value := .tuple (clauses.map (·.toValue))

theorem OrderClause.same_written (clauses : List OrderClause) :
    (written clauses).same (written clauses) = true := by
  have hitems : sameItems (clauses.map (·.toValue)) (clauses.map (·.toValue)) = true := by
    induction clauses with
    | nil => rw [List.map_nil, sameItems]
    | cons clause rest ih =>
      have hclause : clause.toValue.same clause.toValue = true := by
        simp [toValue, Direction.toValue, same, sameItems, sameScalar, text?]
      rw [List.map_cons, sameItems, hclause, ih]
      rfl
  simpa [written, same] using hitems

theorem normalizeAll_of_same {clauses : List OrderClause} {items : List Value}
    (h : sameItems items (clauses.map (·.toValue)) = true) : normalizeAll items = .ok clauses := by
  induction clauses generalizing items with
  | nil =>
    cases items with
    | nil => rw [normalizeAll]
    | cons => simp [sameItems] at h
  | cons clause clauses ih =>
    obtain ⟨item, rest, rfl, hitem, hrest⟩ := exists_of_sameItems_cons h
    obtain ⟨name, direction, rfl, hname, hdirection⟩ :=
      OrderClause.exists_of_same_toValue hitem
    rw [normalizeAll, normalizeOrder_pair hname hdirection, ih hrest]
    rfl

/-- **An ordering written out in full** is read as it stands: its two first clauses are never taken
for a name and a direction. -/
theorem normalizeOrder_again {clauses : List OrderClause} {v : Value}
    (h : v.same (OrderClause.written clauses) = true) : normalizeOrder v = .ok clauses := by
  obtain ⟨items, rfl, hitems⟩ := exists_of_same_tuple h
  have hpair : ¬ IsPair items := by
    rintro ⟨name, direction, rfl, hname, -⟩
    cases clauses with
    | nil => simp [sameItems] at hitems
    | cons clause clauses =>
      obtain ⟨_, _, heq, hclause, -⟩ := exists_of_sameItems_cons hitems
      cases heq
      obtain ⟨_, _, rfl, -⟩ := OrderClause.exists_of_same_toValue hclause
      cases hname
  rw [normalizeOrder_nested hpair]
  exact normalizeAll_of_same hitems

/-- **Reading an ordering** flattens it. It gives clauses, or refuses the declaration if it comes to a
map with a value that is no direction or to something that is neither a text, a map, a list nor a
tuple. A pair is one clause; a list, or a tuple that is no pair, is read as its items one after the
other. What is read from the clauses that it gave, or from anything equal to them, is these
clauses. -/
theorem normalizeOrder_flattens (v : Value) :
    ((∃ clauses, normalizeOrder v = .ok clauses) ∨
      ∃ fault, normalizeOrder v = .error (.misconfigured fault)) ∧
    ((∃ fault, normalizeOrder v = .error (.misconfigured fault)) ↔
      ∃ w, Reached v w ∧ Unreadable w) ∧
    (∀ name direction s d, v = .tuple [name, direction] → name.spelling? = some s →
      Direction.read? direction = some d → normalizeOrder v = .ok [⟨s, d⟩]) ∧
    (∀ items, v = .list items ∨ v = .tuple items ∧ ¬ IsPair items →
      normalizeOrder v = (items.mapM normalizeOrder).map List.flatten) ∧
    ∀ clauses, normalizeOrder v = .ok clauses →
      normalizeOrder (OrderClause.written clauses) = .ok clauses ∧
      ∀ again : Value, again.same (OrderClause.written clauses) = true →
        normalizeOrder again = .ok clauses := by
  have hjudged := judged_normalizeOrder v
  refine ⟨?_, hjudged.refused_iff, ?_, ?_, fun clauses _ =>
    ⟨normalizeOrder_again (OrderClause.same_written clauses), fun _ => normalizeOrder_again⟩⟩
  · by_cases hwrong : Misspelt v
    · exact Or.inr (hjudged.refused hwrong)
    · exact Or.inl (hjudged.read hwrong)
  · rintro name direction s d rfl hname hdirection
    exact normalizeOrder_pair hname hdirection
  · rintro items (rfl | ⟨rfl, hpair⟩)
    · rw [normalizeOrder_list, normalizeAll_eq]
    · rw [normalizeOrder_nested hpair, normalizeAll_eq]

/-- A name, a tuple of two pairs, a tuple of two names and a map, as one ordering. -/
def mixedSpelling : Value :=
  .list [.str "a", .tuple [.tuple [.str "b", .str "desc"], .tuple [.direction .asc, .direction .desc]],
    .tuple [.str "c", .str "d"], .map [(.str "e", .direction .desc)]]

/-- The clauses of `mixedSpelling`. -/
def mixedClauses : List OrderClause :=
  [⟨"a", .asc⟩, ⟨"b", .desc⟩, ⟨"asc", .desc⟩, ⟨"c", .asc⟩, ⟨"d", .asc⟩, ⟨"e", .desc⟩]

/-- An ordering with a map, deep inside, whose value is no direction for its capitals. -/
def capitalSpelling : Value := .list [.str "a", .tuple [.str "b", .map [(.str "c", .str "DESC")]]]

/-- Two pairs in a tuple are no pair, and a direction can be a name; what is written out in full is
read again, and a wrong direction is found however deep it is. -/
theorem normalizeOrder_of_mixed :
    normalizeOrder mixedSpelling = .ok mixedClauses ∧
    normalizeOrder (OrderClause.written mixedClauses) = .ok mixedClauses ∧
    ∃ fault, normalizeOrder capitalSpelling = .error (.misconfigured fault) := by
  have hmixed : normalizeOrder mixedSpelling = .ok mixedClauses := by cbv
  obtain ⟨-, -, -, -, hagain⟩ := normalizeOrder_flattens mixedSpelling
  obtain ⟨-, hrefused, -⟩ := normalizeOrder_flattens capitalSpelling
  have hpair : ¬ IsPair [.str "b", .map [(.str "c", .str "DESC")]] := by
    rintro ⟨name, direction, h, -, hdirection⟩
    cases h
    cases hdirection
  have hreached : Reached capitalSpelling (.map [(.str "c", .str "DESC")]) :=
    .listed (List.mem_cons_of_mem _ List.mem_cons_self)
      (.nested hpair (List.mem_cons_of_mem _ List.mem_cons_self) (.here _))
  have hunreadable : Unreadable (.map [(.str "c", .str "DESC")]) :=
    .direction List.mem_cons_self rfl
  exact ⟨hmixed, (hagain _ hmixed).1, hrefused.mpr ⟨_, hreached, hunreadable⟩⟩

end ResourceQuery
