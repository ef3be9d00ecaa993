import Mathlib.Data.List.Pairwise
import ResourceQuery.Proofs.Collection.KeyOrder
import ResourceQuery.Proofs.Collection.Matching
import ResourceQuery.Proofs.Collection.Window
import ResourceQuery.Proofs.Number.IntegerText
import ResourceQuery.Proofs.Pagination.PageSize
import ResourceQuery.Proofs.Query.Run
import ResourceQuery.Proofs.Value.Lookup
import ResourceQuery.Proofs.Value.Scalar

/-!
# Walking through a collection by positions

A page that starts at a position holds the records next beyond it. Whoever asks for page after
page, each time from the last record of the page before, comes past every record once, in the
order of the column.

Headlines:
* **`IsCursor`**: the positions that stand for a record.
* **`rows_of_first`**, **`rows_of_later`**: the records of a page.
* **`filter_after`**: what lies beyond a record of a sorted list is the rest of the list.
* **`pageAt_eq`**: the pages of a walk are the consecutive windows of the sorted records.
* **`walk_covers_records`**: no record is lost, repeated or moved.
-/

namespace ResourceQuery.Pagination

open Stable Value

/-! ## Columns by which records are told apart -/

/-- The values of a column are all integers, or all texts that are not empty. -/
def HasKeys (column : String) (items : List Value) : Prop :=
  (∀ item ∈ items, ∃ i, item.resolve column = .int i) ∨
    ∀ item ∈ items, ∃ s, s ≠ "" ∧ item.resolve column = .str s

/-- No two records have the same value in a column. -/
def DistinctKeys (column : String) (items : List Value) : Prop :=
  items.Pairwise fun a b => a.resolve column ≠ b.resolve column

/-- The positions that stand for a record: its value in the column, or the decimal text of that. -/
def IsCursor (column : String) (record position : Value) : Prop :=
  position = record.resolve column ∨
    ∃ i, record.resolve column = .int i ∧ Number.isWritable i = true ∧ position = .str (toString i)

/-- The clause by which a page that starts at a position is sorted. -/
def seekClause (column : String) (seek : Seek) : Value × Direction :=
  (.str column, Pager.seekDirection seek)

/-- Does a record stand strictly before another on the way along a column? -/
def StandsBefore (column : String) (seek : Seek) (a b : Value) : Prop :=
  match seek with
  | .after => precedes (a.resolve column) (b.resolve column) = true
  | .before => precedes (b.resolve column) (a.resolve column) = true

section

variable {column : String} {items : List Value}

theorem HasKeys.sameKind (h : HasKeys column items) {a b : Value} (ha : a ∈ items)
    (hb : b ∈ items) : SameKind (a.resolve column) (b.resolve column) := by
  rw [sameKind_iff]
  rcases h with h | h
  · obtain ⟨i, hi⟩ := h a ha
    obtain ⟨j, hj⟩ := h b hb
    exact Or.inl ⟨i, j, hi, hj⟩
  · obtain ⟨s, -, hs⟩ := h a ha
    obtain ⟨t, -, ht⟩ := h b hb
    exact Or.inr ⟨s, t, hs, ht⟩

theorem HasKeys.mono (h : HasKeys column items) {others : List Value}
    (hsub : ∀ item ∈ others, item ∈ items) : HasKeys column others := by
  rcases h with h | h
  · exact Or.inl fun item hitem => h item (hsub item hitem)
  · exact Or.inr fun item hitem => h item (hsub item hitem)

theorem DistinctKeys.eq (h : DistinctKeys column items) {a b : Value} (ha : a ∈ items)
    (hb : b ∈ items) (hkey : a.resolve column = b.resolve column) : a = b := by
  have hsymm : Std.Symm fun a b : Value => a.resolve column ≠ b.resolve column :=
    ⟨fun _ _ hab => hab.symm⟩
  by_contra hne
  exact List.Pairwise.forall h ha hb hne hkey

/-- The records can be sorted by the column. -/
theorem HasKeys.sortable (h : HasKeys column items) (seek : Seek) :
    Sortable (seekClause column seek) items :=
  sortable_of_sameKind (fun item _ => ⟨item.resolve column, rfl⟩)
    fun _ ha _ hb => h.sameKind ha hb

/-- A record may stand before another by the clause unless it stands strictly after it. -/
theorem clauseLe_eq (h : HasKeys column items) (seek : Seek) {a b : Value} (ha : a ∈ items)
    (hb : b ∈ items) :
    clauseLe (seekClause column seek) a b = false ↔ StandsBefore column seek b a := by
  have hab := keyBelow?_of_sameKind (h.sameKind ha hb)
  have hba := keyBelow?_of_sameKind (h.sameKind hb ha)
  cases seek with
  | after =>
    show (keyBelow? (b.resolve column) (a.resolve column) != some true) = false ↔ _
    rw [hba, StandsBefore]
    simp
  | before =>
    show (keyBelow? (a.resolve column) (b.resolve column) != some true) = false ↔ _
    rw [hab, StandsBefore]
    simp

/-- Two records between which the clause does not decide are the same one. -/
theorem eq_of_clauseLe (h : HasKeys column items) (hdistinct : DistinctKeys column items)
    (seek : Seek) {a b : Value} (ha : a ∈ items) (hb : b ∈ items)
    (hab : clauseLe (seekClause column seek) a b = true)
    (hba : clauseLe (seekClause column seek) b a = true) : a = b := by
  refine hdistinct.eq ha hb ?_
  have hab' := (clauseLe_eq h seek ha hb).not.mp (by simp [hab])
  have hba' := (clauseLe_eq h seek hb ha).not.mp (by simp [hba])
  cases seek with
  | after =>
    exact eq_of_not_precedes (h.sameKind ha hb) (by simpa [StandsBefore] using hba')
      (by simpa [StandsBefore] using hab')
  | before =>
    exact eq_of_not_precedes (h.sameKind ha hb) (by simpa [StandsBefore] using hab')
      (by simpa [StandsBefore] using hba')

/-! ## The records of one page -/

/-- What lies beyond a record of a list in order is the rest of the list. -/
theorem filter_after {le : Value → Value → Bool} {before rest : List Value} {record : Value}
    (hsorted : (before ++ record :: rest).Pairwise fun a b => le a b = true)
    (hself : le record record = true) (hrest : ∀ a ∈ rest, le a record = false) :
    (before ++ record :: rest).filter (fun item => !le item record) = rest := by
  have hbefore : ∀ a ∈ before, le a record = true := fun a ha =>
    (List.pairwise_append.mp hsorted).2.2 a ha record List.mem_cons_self
  have hnone : before.filter (fun item => !le item record) = [] :=
    List.filter_eq_nil_iff.mpr fun a ha => by simp [hbefore a ha]
  have hall : rest.filter (fun item => !le item record) = rest :=
    List.filter_eq_self.mpr fun a ha => by simp [hrest a ha]
  rw [List.filter_append, hnone, List.filter_cons_of_neg (by simp [hself]), hall, List.nil_append]

/-- The side of a position that a page lies on. -/
def seekSide : Seek → Side
  | .after => .above
  | .before => .below

theorem read?_seekOperator (seek : Seek) :
    Side.read? (.str (Pager.seekOperator seek)) = some (seekSide seek) := by
  cases seek with
  | after => rfl
  | before => rfl

theorem toString_ne_empty {i : Int} (h : Number.isWritable i = true) : toString i ≠ "" := by
  intro hempty
  have hread := Number.readInteger_toString h
  rw [hempty] at hread
  cases hread

/-- A cursor is a position to start at. -/
theorem isPosition_of_isCursor (h : HasKeys column items) {record position : Value}
    (hrecord : record ∈ items) (hcursor : IsCursor column record position) :
    Pager.isPosition position = true := by
  rcases hcursor with rfl | ⟨i, -, hi, rfl⟩
  · rcases h with h | h
    · obtain ⟨i, hi⟩ := h record hrecord
      rw [hi]
      rfl
    · obtain ⟨s, hs, heq⟩ := h record hrecord
      rw [heq]
      simpa [Pager.isPosition] using hs
  · simpa [Pager.isPosition] using toString_ne_empty hi

/-- Next to a value of the column a cursor is read as the value of its record. -/
theorem coerce_of_isCursor (h : HasKeys column items) {record item position : Value}
    (hrecord : record ∈ items) (hitem : item ∈ items) (hcursor : IsCursor column record position) :
    position.coerce (item.resolve column) = record.resolve column := by
  rcases sameKind_iff.mp (h.sameKind hrecord hitem) with ⟨i, j, hi, hj⟩ | ⟨s, t, hs, ht⟩
  · rcases hcursor with rfl | ⟨i', hi', hwritable, rfl⟩
    · rw [hi]
      rfl
    · have hread := Number.readInteger_toString hwritable
      rw [hj, hi', coerce]
      simp only [text?, hread, Option.map_some, Option.getD_some]
  · rcases hcursor with rfl | ⟨i', hi', -, -⟩
    · rw [hs, ht]
      rfl
    · rw [hs] at hi'
      cases hi'

/-- The records that are kept beyond a record are those that stand strictly after it. -/
theorem holds_beyond (h : HasKeys column items) (seek : Seek) {record item position : Value}
    (hrecord : record ∈ items) (hitem : item ∈ items) (hcursor : IsCursor column record position) :
    Predicate.holds item (.beyond (.str column) (seekSide seek) position) =
      .ok (!clauseLe (seekClause column seek) item record) := by
  have hkinds := h.sameKind hitem hrecord
  have hle := clauseLe_eq h seek hitem hrecord
  have hattribute : attributeOf (.str column) item = .ok (item.resolve column) := rfl
  have hbeyond : (!clauseLe (seekClause column seek) item record) = true ↔
      StandsBefore column seek record item := by
    rw [← hle, Bool.not_eq_true']
  rw [Predicate.holds, hattribute]
  simp only [bind, Except.bind, isNull_of_sameKind hkinds, Bool.false_eq_true, if_false,
    coerce_of_isCursor h hrecord hitem hcursor]
  cases seek with
  | after =>
    show orderOf ((record.resolve column).below? (item.resolve column)) = _
    rw [below?_of_sameKind hkinds.symm, orderOf, Except.ok.injEq, Bool.eq_iff_iff, hbeyond]
    rfl
  | before =>
    show orderOf ((item.resolve column).below? (record.resolve column)) = _
    rw [below?_of_sameKind hkinds, orderOf, Except.ok.injEq, Bool.eq_iff_iff, hbeyond]
    rfl

/-- The query of a page that starts at a position. -/
def soughtPage (column : String) (k : KeysetInfo) (m : Memory) : Memory :=
  let beyond :=
    if Pager.isPosition k.position then
      [Predicate.beyond (.str column) (seekSide k.seek) k.position]
    else []
  { m with
    ordering := [seekClause column k.seek]
    predicates := m.predicates ++ beyond
    limit := k.limit.toValue }

theorem result_seekPage (column : String) (k : KeysetInfo) (m : Memory) :
    (Pager.seekPage column k (Selection.live m)).result = .ok (.live (soughtPage column k m)) := by
  have hordered := Selection.result_perform_live
    (Memory.perform_reorderClauses m [⟨column, Pager.seekDirection k.seek⟩])
  unfold Pager.seekPage soughtPage
  rw [Traced.result_bind_of_ok hordered]
  by_cases hposition : Pager.isPosition k.position = true
  · rw [if_pos hposition, if_pos hposition, Traced.result_bind_of_ok (Selection.result_perform_live
      (show Memory.perform (.compare (.str column) (.str (Pager.seekOperator k.seek)) k.position) _ =
        .ok _ by rw [Memory.perform, read?_seekOperator])), Traced.result_bind_of_ok rfl]
    rfl
  · rw [if_neg hposition, if_neg hposition, Traced.result_bind_of_ok rfl,
      Traced.result_bind_of_ok rfl]
    simp only [List.append_nil]
    rfl

variable {m : Memory} {matching : List Value} {k : KeysetInfo} {size : Nat}

/-- The sorted records of a page, of which it holds the first. -/
theorem rows_of_sought {m' : Memory} {found : List Value} (hmatching : m'.matching = .ok found)
    (hordering : m'.ordering = [seekClause column k.seek]) (hoffset : m'.offset.isTruthy = false)
    (hlimit : m'.limit.wholeNumber? = some (size : Int)) (h : HasKeys column found) :
    m'.rows = .ok ((found.mergeSort (clauseLe (seekClause column k.seek))).take size) := by
  have hsorted : m'.sorted = .ok (found.mergeSort (clauseLe (seekClause column k.seek))) := by
    rw [Memory.sorted, hmatching, hordering]
    show List.foldrM sortByClause found [seekClause column k.seek] = _
    rw [List.foldrM_cons]
    exact sortByClause_of_sortable (h.sortable k.seek)
  have hstart : m'.start = .ok 0 := by
    rw [Memory.start, hoffset]
    rfl
  rw [Memory.rows_of_window hstart hlimit (Int.le_refl 0) (Int.natCast_nonneg size), hsorted]
  rfl

/-- **The first page** holds the first records in the order of the column. -/
theorem rows_of_first (hmatching : m.matching = .ok matching) (h : HasKeys column matching)
    (hoffset : m.offset.isTruthy = false) (hlimit : k.limit.toValue.wholeNumber? = some (size : Int))
    (hposition : Pager.isPosition k.position = false) :
    (soughtPage column k m).rows =
      .ok ((matching.mergeSort (clauseLe (seekClause column k.seek))).take size) := by
  refine rows_of_sought ?_ rfl hoffset hlimit h
  have hpredicates : (soughtPage column k m).predicates = m.predicates := by
    simp [soughtPage, hposition]
  rw [Memory.matching, hpredicates]
  exact hmatching

/-- **A later page** holds the first of the records after the one that its position stands for. -/
theorem rows_of_later (hmatching : m.matching = .ok matching) (h : HasKeys column matching)
    (hdistinct : DistinctKeys column matching) (hoffset : m.offset.isTruthy = false)
    (hlimit : k.limit.toValue.wholeNumber? = some (size : Int)) {before rest : List Value}
    {record : Value} (hcursor : IsCursor column record k.position)
    (hsplit : matching.mergeSort (clauseLe (seekClause column k.seek)) =
      before ++ record :: rest) :
    (soughtPage column k m).rows = .ok (rest.take size) := by
  have hranks := (h.sortable k.seek).ranks
  have hperm := List.mergeSort_perm matching (clauseLe (seekClause column k.seek))
  have hsorted := hranks.pairwise_mergeSort
  rw [hsplit] at hperm hsorted
  have hmem : ∀ item ∈ before ++ record :: rest, item ∈ matching := fun item hitem =>
    hperm.mem_iff.mp hitem
  have hrecord : record ∈ matching := hmem record (by simp)
  -- Of the records that come after this one none may stand before it, as their keys differ.
  have hrest : ∀ a ∈ rest, clauseLe (seekClause column k.seek) a record = false := by
    intro a ha
    have hpair := (List.pairwise_cons.mp (List.pairwise_append.mp hsorted).2.1).1 a ha
    have hkeys : DistinctKeys column (before ++ record :: rest) :=
      (hperm.pairwise_iff fun hab => hab.symm).mpr hdistinct
    have hkey := (List.pairwise_cons.mp (List.pairwise_append.mp hkeys).2.1).1 a ha
    by_contra hle
    rw [Bool.not_eq_false] at hle
    exact hkey (congrArg (·.resolve column)
      (eq_of_clauseLe h hdistinct k.seek hrecord (hmem a (by simp [ha])) hpair hle))
  have hself : clauseLe (seekClause column k.seek) record record = true := by
    rcases hranks.total record hrecord record hrecord with hle | hle
    · exact hle
    · exact hle
  have hfound : (soughtPage column k m).matching =
      .ok (matching.filter fun item => !clauseLe (seekClause column k.seek) item record) := by
    refine Memory.matching_narrowed hmatching rfl ?_ fun item hitem =>
      holds_beyond h k.seek hrecord hitem hcursor
    simp [soughtPage, isPosition_of_isCursor h hrecord hcursor]
  have hsub : ∀ item ∈ matching.filter (fun item =>
      !clauseLe (seekClause column k.seek) item record), item ∈ matching :=
    fun item hitem => List.mem_of_mem_filter hitem
  have harranged : rest = (matching.filter fun item =>
      !clauseLe (seekClause column k.seek) item record).mergeSort
        (clauseLe (seekClause column k.seek)) := by
    refine (hranks.mono hsub).eq_mergeSort (fun a ha b hb => ?_) ?_ ?_
    · exact eq_of_clauseLe h hdistinct k.seek (hsub a ha) (hsub b hb)
    · rw [← filter_after hsorted hself hrest]
      exact hperm.filter _
    · exact (List.pairwise_cons.mp (List.pairwise_append.mp hsorted).2.1).2
  rw [rows_of_sought hfound rfl hoffset hlimit (h.mono hsub), ← harranged]

end

/-! ## Requests for pages -/

namespace KeysetFields

variable {entries : List (Value × Value)} {f : KeysetFields}

/-- Reading the fields succeeds exactly if each of them can be read; a position always can. -/
theorem read_eq_ok_iff :
    read entries = .ok f ↔
      textField (fieldValue "column" entries) = .ok f.column ∧
      Seek.read (lookup? "direction" entries) = .ok f.seek ∧
      integerField 1 (fieldValue "limit" entries) = .ok f.limit ∧
      fieldValue "position" entries = f.position := by
  constructor
  · intro h
    unfold read at h
    simp only at h
    split at h
    · next hcolumn hseek hlimit =>
      cases h
      exact ⟨hcolumn, hseek, hlimit, rfl⟩
    · cases h
  · rintro ⟨hcolumn, hseek, hlimit, hposition⟩
    simp only [read, hcolumn, hseek, hlimit, hposition]

theorem one_le_limit (h : read entries = .ok f) {i : Int} (hi : f.limit = some i) : 1 ≤ i := by
  obtain ⟨-, -, hlimit, -⟩ := read_eq_ok_iff.mp h
  exact integerField_bound (hi ▸ hlimit)

/-- The fields of the page at another position. -/
theorem read_put_position (h : read entries = .ok f) (position : Value) :
    read (Value.put (.str "position") position entries) = .ok { f with position := position } := by
  obtain ⟨hcolumn, hseek, hlimit, -⟩ := read_eq_ok_iff.mp h
  refine read_eq_ok_iff.mpr ⟨?_, ?_, ?_, ?_⟩
  · rwa [fieldValue, lookup?_put_of_ne (by decide)]
  · rwa [lookup?_put_of_ne (by decide)]
  · rwa [fieldValue, lookup?_put_of_ne (by decide)]
  · rw [fieldValue, lookup?_put_self, Option.getD_some]

end KeysetFields

/-- The number of records that a page holds at most. -/
def limitOf (settings : Settings) (f : KeysetFields) : Quantity :=
  (f.limit.map .whole).getD settings.defaultKeysetLimit

theorem isInteger_limitOf {settings : Settings} {f : KeysetFields} (h : settings.IsTyped) :
    (limitOf settings f).isInteger = true := by
  unfold limitOf
  cases f.limit with
  | none => exact h.defaultKeysetLimit
  | some i => rfl

theorem one_le_limitOf {settings : Settings} {f : KeysetFields} (h : settings.IsTyped)
    {entries : List (Value × Value)} (hread : KeysetFields.read entries = .ok f) :
    1 ≤ (limitOf settings f).truncate := by
  unfold limitOf
  cases hlimit : f.limit with
  | none => exact h.one_le_keyset
  | some i => exact KeysetFields.one_le_limit hread hlimit

/-- The parameters of a request with another position, or as they are for the first page. -/
def entriesFrom (position : Option Value) (entries : List (Value × Value)) :
    List (Value × Value) :=
  match position with
  | none => entries
  | some position =>
    let page := Value.put (.str "position") position (pageEntries entries)
    Value.put (.str "page") (.map page) entries

/-- The pager for the page at a position. -/
def pagerFrom (settings : Settings) (base : Option String) (entries : List (Value × Value))
    (position : Option Value) : Pager :=
  ⟨.keyset, .map (entriesFrom position entries), settings, base⟩

theorem entries_pagerFrom (settings : Settings) (base : Option String)
    (entries : List (Value × Value)) (position : Option Value) :
    (pagerFrom settings base entries position).entries = .ok (entriesFrom position entries) := by
  unfold Pager.entries pagerFrom
  cases entriesFrom position entries with
  | nil => rfl
  | cons e rest => rfl

theorem read_entriesFrom {entries : List (Value × Value)} {f : KeysetFields}
    (h : KeysetFields.read (pageEntries entries) = .ok f) (position : Value) :
    KeysetFields.read (pageEntries (entriesFrom (some position) entries)) =
      .ok { f with position := position } := by
  rw [entriesFrom, pageEntries, lookup?_put_self]
  exact KeysetFields.read_put_position h position

/-- The records of the page at a position. -/
def fetch (settings : Settings) (base : Option String) (entries : List (Value × Value)) (m : Memory)
    (position : Option Value) : Except QueryError (List Value) :=
  Traced.result do
    let (page, _) ← (pagerFrom settings base entries position).paginate (Selection.live m)
    Collection.all page

/-- A pager for positions gives the page that it has begun. -/
theorem result_paginate_of_keyset {p : Pager} {entries : List (Value × Value)} {k : KeysetInfo}
    (hkind : p.kind = .keyset) (hentries : p.entries = .ok entries)
    (hinfo : p.keysetInfo entries = .ok k) (collection : Selection Memory) :
    (p.paginate collection).result =
      (Pager.keysetRecords k collection).result.map fun page => (page, .keyset k) := by
  have hbegin : (p.begin collection).result =
      .ok (.keyset k, Pager.keysetRecords k collection) := by
    unfold Pager.begin
    rw [hkind, hentries]
    show (Traced.ofExcept (p.keysetInfo entries) >>= _).result = _
    rw [Traced.result_bind_of_ok (a := k) hinfo]
    rfl
  rw [Pager.paginate, Traced.result_bind_of_ok hbegin, Traced.result_bind]
  cases (Pager.keysetRecords k collection).result with
  | error e => rfl
  | ok page => rfl

/-- Fetching runs the query of the page. -/
theorem fetch_eq {settings : Settings} {base : Option String} {entries : List (Value × Value)}
    {m : Memory} {position : Option Value} {f : KeysetFields} {column : String}
    (hread : KeysetFields.read (pageEntries (entriesFrom position entries)) = .ok f)
    (hcolumn : f.column = some column) (hne : column ≠ "") :
    fetch settings base entries m position =
      (soughtPage column ⟨f.column, f.position, f.seek, limitOf settings f⟩ m).rows := by
  have hinfo : (pagerFrom settings base entries position).keysetInfo
      (entriesFrom position entries) =
        .ok ⟨f.column, f.position, f.seek, limitOf settings f⟩ := by
    rw [Pager.keysetInfo, hread]
    rfl
  have hrecords : Pager.keysetRecords ⟨f.column, f.position, f.seek, limitOf settings f⟩
      (Selection.live m) = Pager.seekPage column ⟨f.column, f.position, f.seek, limitOf settings f⟩
        (Selection.live m) := by
    unfold Pager.keysetRecords
    rw [hcolumn]
    split
    · next heq => cases heq
    · next heq => exact absurd (Option.some.inj heq) hne
    · next heq => rw [Option.some.inj heq]
  have hpage := result_paginate_of_keyset (p := pagerFrom settings base entries position) rfl
    (entries_pagerFrom ..) hinfo (.live m)
  rw [hrecords, result_seekPage] at hpage
  rw [fetch, Traced.result_bind_of_ok hpage]
  rfl

/-! ## Walking from page to page -/

/-- The page after a page, which starts where that one ends. After an empty page comes none. -/
def nextPage (get : Option Value → Except QueryError (List Value)) (cursor : Value → Value)
    (page : List Value) : Except QueryError (List Value) :=
  match page.getLast? with
  | some last => get (some (cursor last))
  | none => .ok []

/-- The page that is reached after so many pages. `cursor` names the last record of each page. -/
def pageAt (get : Option Value → Except QueryError (List Value)) (cursor : Nat → Value → Value) :
    Nat → Except QueryError (List Value)
  | 0 => get none
  | i + 1 => do nextPage get (cursor i) (← pageAt get cursor i)

/-- A list of records cut after the last record of one of its windows. -/
theorem exists_split_at_window {records : List Value} {start size : Nat} {last : Value}
    (h : ((records.drop start).take size).getLast? = some last) :
    ∃ before, records = before ++ last :: records.drop (start + size) := by
  obtain ⟨front, hfront⟩ := List.getLast?_eq_some_iff.mp h
  refine ⟨records.take start ++ front, ?_⟩
  calc records = records.take start ++ records.drop start := (List.take_append_drop ..).symm
    _ = records.take start ++ ((records.drop start).take size ++
          (records.drop start).drop size) := by rw [List.take_append_drop size]
    _ = records.take start ++ front ++ last :: records.drop (start + size) := by
      rw [hfront, List.drop_drop]
      simp

/-- **The pages of a walk** are the consecutive windows of a list, if the first page is its first
window and the page after a record is the window that follows the record. -/
theorem pageAt_eq {get : Option Value → Except QueryError (List Value)}
    {cursor : Nat → Value → Value} {records : List Value} {size : Nat} (hsize : 1 ≤ size)
    (hfirst : get none = .ok (records.take size))
    (hlater : ∀ i before record rest, records = before ++ record :: rest →
      get (some (cursor i record)) = .ok (rest.take size)) :
    ∀ i, pageAt get cursor i = .ok ((records.drop (size * i)).take size)
  | 0 => by rw [pageAt, hfirst, Nat.mul_zero, List.drop_zero]
  | i + 1 => by
    rw [pageAt, pageAt_eq hsize hfirst hlater i]
    show nextPage get (cursor i) ((records.drop (size * i)).take size) = _
    unfold nextPage
    cases hlast : ((records.drop (size * i)).take size).getLast? with
    | none =>
      have hempty : records.drop (size * i) = [] := by
        rcases List.take_eq_nil_iff.mp (List.getLast?_eq_none_iff.mp hlast) with hzero | hempty
        · omega
        · exact hempty
      rw [Nat.mul_succ, ← List.drop_drop, hempty]
      simp
    | some last =>
      obtain ⟨before, hsplit⟩ := exists_split_at_window hlast
      exact hlater i before last _ hsplit

/-- The records in the order of a column stand strictly one before the other. -/
theorem pairwise_standsBefore {column : String} {items : List Value} (h : HasKeys column items)
    (hdistinct : DistinctKeys column items) (seek : Seek) :
    (items.mergeSort (clauseLe (seekClause column seek))).Pairwise (StandsBefore column seek) := by
  have hperm := List.mergeSort_perm items (clauseLe (seekClause column seek))
  have hkeys : DistinctKeys column (items.mergeSort (clauseLe (seekClause column seek))) :=
    (hperm.pairwise_iff fun hab => hab.symm).mpr hdistinct
  have hsorted := (h.sortable seek).ranks.pairwise_mergeSort
  refine (hsorted.and hkeys).imp_of_mem fun {a b} ha hb hab => ?_
  have ha' := hperm.mem_iff.mp ha
  have hb' := hperm.mem_iff.mp hb
  refine (clauseLe_eq h seek hb' ha').mp ?_
  by_contra hle
  rw [Bool.not_eq_false] at hle
  exact hab.2 (congrArg (·.resolve column) (eq_of_clauseLe h hdistinct seek ha' hb' hab.1 hle))

theorem length_window {α : Type} (xs : List α) (size i : Nat) :
    ((xs.drop (size * i)).take size).length = min size (xs.length - size * i) := by
  rw [List.length_take, List.length_drop]

/-- **A walk covers the records.** The first page is asked for without a position, and each further
one at the last record of the page before it. No request fails. As many pages as the records fill
hold records, all but the last of them as many as a page may hold, and the page after them is
empty. Together they are the matching records, each once, in the strict order of the column. -/
theorem walk_covers_records {settings : Settings} {entries : List (Value × Value)}
    {f : KeysetFields} {column : String} {m : Memory} {matching : List Value}
    {cursor : Nat → Value → Value} (base : Option String) (hsettings : settings.IsTyped)
    (hread : KeysetFields.read (pageEntries entries) = .ok f)
    (hcolumn : f.column = some column) (hne : column ≠ "")
    (hfirst : Pager.isPosition f.position = false) (hoffset : m.offset.isTruthy = false)
    (hmatching : m.matching = .ok matching) (hkeys : HasKeys column matching)
    (hdistinct : DistinctKeys column matching)
    (hcursor : ∀ i, ∀ record ∈ matching, IsCursor column record (cursor i record)) :
    ∃ (sorted : List Value) (pages : Nat → List Value) (size count : Nat),
      1 ≤ size ∧ (limitOf settings f).truncate = size ∧
      count = windowCount matching.length size ∧
      sorted.Perm matching ∧ sorted.Pairwise (StandsBefore column f.seek) ∧
      (∀ i, pageAt (fetch settings base entries m) cursor i = .ok (pages i)) ∧
      (∀ i < count, pages i ≠ []) ∧
      (∀ i, i + 1 < count → (pages i).length = size) ∧
      pages count = [] ∧
      (List.range count).flatMap pages = sorted := by
  have hlimit := one_le_limitOf hsettings hread
  obtain ⟨size, hsize⟩ := Int.eq_ofNat_of_zero_le (show 0 ≤ (limitOf settings f).truncate by omega)
  have hwhole : (limitOf settings f).toValue.wholeNumber? = some (size : Int) := by
    rw [Quantity.toValue_wholeNumber? (isInteger_limitOf hsettings), hsize]
  have hperm := List.mergeSort_perm matching (clauseLe (seekClause column f.seek))
  have hstart : fetch settings base entries m none =
      .ok ((matching.mergeSort (clauseLe (seekClause column f.seek))).take size) := by
    have hread' : KeysetFields.read (pageEntries (entriesFrom none entries)) = .ok f := hread
    rw [fetch_eq hread' hcolumn hne]
    exact rows_of_first hmatching hkeys hoffset hwhole hfirst
  have hlater : ∀ i before record rest,
      matching.mergeSort (clauseLe (seekClause column f.seek)) = before ++ record :: rest →
        fetch settings base entries m (some (cursor i record)) = .ok (rest.take size) := by
    intro i before record rest hsplit
    have hrecord : record ∈ matching := hperm.mem_iff.mp (by rw [hsplit]; simp)
    rw [fetch_eq (read_entriesFrom hread (cursor i record)) hcolumn hne]
    exact rows_of_later hmatching hkeys hdistinct hoffset hwhole (hcursor i record hrecord) hsplit
  have hpages := pageAt_eq (by omega) hstart hlater
  have hlength := hperm.length_eq
  refine ⟨_, _, size, _, by omega, hsize, rfl, hperm,
    pairwise_standsBefore hkeys hdistinct f.seek, hpages, ?_, ?_, ?_, ?_⟩
  · intro i hi
    have hstart := (lt_windowCount_iff (by omega) _ _).mp hi
    refine List.ne_nil_of_length_pos ?_
    rw [length_window]
    omega
  · intro i hi
    have hnext := (lt_windowCount_iff (by omega) _ _).mp hi
    rw [Nat.mul_succ] at hnext
    rw [length_window]
    omega
  · rw [List.drop_eq_nil_of_le, List.take_nil]
    rw [hlength]
    exact le_mul_windowCount (by omega) matching.length
  · rw [flatMap_windows, List.take_of_length_le]
    rw [hlength]
    exact le_mul_windowCount (by omega) matching.length

/-- Three records in pages of two, from the greatest down. The text of a number is the position,
and another order and another limit are replaced. -/
theorem walk_covers_three_records :
    ∃ (m : Memory) (cursor : Nat → Value → Value),
      m.limit = .int 1 ∧
      m.matching = .ok [.record [("n", .int 3)], .record [("n", .int 1)], .record [("n", .int 2)]] ∧
      cursor 0 (.record [("n", .int 2)]) = .str "2" ∧
      ∃ (sorted : List Value) (pages : Nat → List Value) (count : Nat),
        count = windowCount 3 2 ∧
        sorted.Perm
          [.record [("n", .int 3)], .record [("n", .int 1)], .record [("n", .int 2)]] ∧
        sorted.Pairwise (StandsBefore "n" .before) ∧
        (∀ i, pageAt (fetch .default none [(.str "page", .map [(.str "column", .str "n"),
          (.str "direction", .str "before"), (.str "limit", .int 2)])] m) cursor i =
            .ok (pages i)) ∧
        (List.range count).flatMap pages = sorted := by
  let m : Memory :=
    { items := [.record [("n", .int 3)], .record [("n", .int 1)], .record [("n", .int 2)]]
      ordering := [(.str "n", .asc)]
      limit := .int 1 }
  let cursor : Nat → Value → Value := fun _ record =>
    .str (toString ((record.resolve "n").wholeNumber?.getD 0))
  have hmatching : m.matching =
      .ok [.record [("n", .int 3)], .record [("n", .int 1)], .record [("n", .int 2)]] := by
    cbv
  have hoffset : m.offset.isTruthy = false := rfl
  have hsettings : Settings.default.IsTyped := ⟨rfl, rfl, rfl⟩
  have hread : KeysetFields.read (pageEntries [(.str "page", .map [(.str "column", .str "n"),
      (.str "direction", .str "before"), (.str "limit", .int 2)])]) =
        .ok ⟨some "n", .null, .before, some 2⟩ := by rfl
  have hkey (i : Int) : Value.resolve (.record [("n", .int i)]) "n" = .int i := by
    rfl
  have hrecords : ∀ record ∈ ([.record [("n", .int 3)], .record [("n", .int 1)],
      .record [("n", .int 2)]] : List Value),
        ∃ i, Number.isWritable i = true ∧ record.resolve "n" = .int i := by
    simp only [List.forall_mem_cons]
    refine ⟨⟨3, by decide +kernel, hkey 3⟩, ⟨1, by decide +kernel, hkey 1⟩,
      ⟨2, by decide +kernel, hkey 2⟩, by simp⟩
  have hcursor : ∀ i, ∀ record ∈ ([.record [("n", .int 3)], .record [("n", .int 1)],
      .record [("n", .int 2)]] : List Value), IsCursor "n" record (cursor i record) := by
    intro _ record hrecord
    obtain ⟨i, hi, hkey⟩ := hrecords record hrecord
    exact Or.inr ⟨i, hkey, hi, by simp only [cursor, hkey, wholeNumber?, Option.getD_some]⟩
  have hdistinct : DistinctKeys "n" [.record [("n", .int 3)], .record [("n", .int 1)],
      .record [("n", .int 2)]] := by
    simp [DistinctKeys, hkey]
  obtain ⟨sorted, pages, size, count, -, hsize, hcount, hperm, hsorted, hpages, -, -, -, hall⟩ :=
    walk_covers_records none hsettings hread rfl (by decide) rfl hoffset hmatching
      (Or.inl fun record hrecord => (hrecords record hrecord).imp fun _ h => h.2) hdistinct hcursor
  have htwo : (2 : Int) = size := hsize
  have htwo : size = 2 := by omega
  subst htwo
  exact ⟨m, cursor, rfl, hmatching, rfl, sorted, pages, count, hcount, hperm, hsorted, hpages, hall⟩

end ResourceQuery.Pagination
