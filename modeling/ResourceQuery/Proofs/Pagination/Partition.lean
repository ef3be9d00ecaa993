import ResourceQuery.Proofs.Collection.KeyOrder
import ResourceQuery.Proofs.Collection.Window
import ResourceQuery.Proofs.Number.RoundedQuotient
import ResourceQuery.Proofs.Pagination.LinkText
import ResourceQuery.Proofs.Pagination.PageSize
import ResourceQuery.Proofs.Query.Run
import ResourceQuery.Proofs.Value.Lookup

/-!
# Numbered pages partition a collection

The page count, the check of the page number and the window of a page are computed apart from
each other. Together they cut the sorted records, without the padding in front of them, into
pages of one size, and a page number past the last page is refused.

Headlines:
* **`pagerAt`**: the pager for a page of a request.
* **`lastPage`**: the number of the last page.
* **`result_beginPage_eq_ok_iff`**: when a page is begun, for settings of any kind.
* **`result_beginPage`**, **`result_beginPage_of_lt`**: one page, and a page past the last one.
* **`rows_of_page`**: the records of one page.
* **`flatMap_pages`**: all pages together.
* **`pages_partition_records`**: the pages of a request, for every page number.
-/

namespace ResourceQuery.Pagination

/-- The number of the last page: there is one page even if there are no records. -/
def lastPage (records size : Nat) : Nat := max 1 (windowCount records size)

theorem le_mul_lastPage {size : Nat} (hsize : 0 < size) (records : Nat) :
    records ≤ size * lastPage records size :=
  (le_mul_windowCount hsize records).trans (Nat.mul_le_mul_left size (Nat.le_max_right ..))

/-! ## Another page of the same request -/

/-- The pager for a page of the request. -/
def pagerAt (settings : Settings) (base : Option String) (entries : List (Value × Value))
    (number : Int) : Pager :=
  ⟨.page, .map (entriesAt number entries), settings, base⟩

theorem entries_pagerAt (settings : Settings) (base : Option String)
    (entries : List (Value × Value)) (number : Int) :
    (pagerAt settings base entries number).entries = .ok (entriesAt number entries) := by
  rw [Pager.entries, pagerAt, if_pos (show (Value.map (entriesAt number entries)).isTruthy = true
    from Value.isTruthy_map_put ..)]
  rfl

namespace PageFields

/-- The fields of another page. -/
theorem read_put_number {entries : List (Value × Value)} {f : PageFields}
    (h : read entries = .ok f) {number : Int} (hnumber : 1 ≤ number) :
    read (Value.put (.str "number") (.int number) entries) =
      .ok { f with number := some number } := by
  obtain ⟨-, hsize, hoffset, houtset⟩ := read_eq_ok_iff.mp h
  refine read_eq_ok_iff.mpr ⟨?_, ?_, ?_, ?_⟩
  · rw [fieldValue, Value.lookup?_put_self]
    show integerField 1 (.int number) = _
    simp [integerField, integer?, bind, Except.bind, pure, Except.pure,
      show ¬ number < 1 by omega]
  all_goals rw [fieldValue, Value.lookup?_put_of_ne (by decide)]; assumption

/-- No page has a number below one. -/
theorem read_put_number_of_lt {entries : List (Value × Value)} {f : PageFields}
    (h : read entries = .ok f) {number : Int} (hnumber : number < 1) :
    read (Value.put (.str "number") (.int number) entries) =
      .error (invalid [("number", some (.below 1))]) := by
  obtain ⟨-, hsize, hoffset, houtset⟩ := read_eq_ok_iff.mp h
  have hfield : blankableField 1 (.int number) = .error (.below 1) := by
    show integerField 1 (.int number) = _
    simp [integerField, integer?, bind, Except.bind, throw, throwThe,
      MonadExceptOf.throw, hnumber]
  have hne (name : String) (hname : name ≠ "number") :
      fieldValue name (Value.put (.str "number") (.int number) entries) =
        fieldValue name entries := by
    rw [fieldValue, Value.lookup?_put_of_ne hname, fieldValue]
  unfold read
  rw [hne "size" (by decide), hne "offset" (by decide), hne "outset" (by decide), hsize,
    hoffset, houtset, fieldValue, Value.lookup?_put_self, Option.getD_some, hfield]
  rfl

end PageFields

theorem read_entriesAt {entries : List (Value × Value)} {f : PageFields}
    (h : PageFields.read (pageEntries entries) = .ok f) {number : Int} (hnumber : 1 ≤ number) :
    PageFields.read (pageEntries (entriesAt number entries)) =
      .ok { f with number := some number } := by
  rw [pageEntries_entriesAt, PageFields.read_put_number h hnumber]

/-! ## One page -/

/-- The size of the pages that are asked for. -/
def pageSize (settings : Settings) (f : PageFields) : Nat :=
  (PageWindow.ofFields settings f).size.truncate.toNat

/-- The records of a page: after the padding and the pages before it, as many as it holds. -/
def pageRows (size padding number : Int) (records : List Value) : List Value :=
  Value.slice (size * (number - 1) + padding) (some (size * number + padding)) records

/-- The records of a page among all records. -/
def PageWindow.cut (w : PageWindow) (records : List Value) : List Value :=
  (records.drop w.start.toNat).take w.size.truncate.toNat

theorem pageRows_eq_take_drop {size padding number : Int} (hsize : 0 ≤ size)
    (hpadding : 0 ≤ padding) (hnumber : 1 ≤ number) (records : List Value) :
    pageRows size padding number records =
      (records.drop (size * (number - 1) + padding).toNat).take size.toNat := by
  have hstart : 0 ≤ size * (number - 1) := Int.mul_nonneg hsize (by omega)
  have hstop : size * number + padding = size * (number - 1) + padding + size := by ring
  rw [pageRows, hstop, slice_eq_take_drop (by omega) hsize]

/-- No page holds more than its size. -/
theorem length_pageRows_le {size padding number : Int} (hsize : 0 ≤ size)
    (hpadding : 0 ≤ padding) (hnumber : 1 ≤ number) (records : List Value) :
    ((pageRows size padding number records).length : Int) ≤ size := by
  rw [pageRows_eq_take_drop hsize hpadding hnumber, List.length_take]
  omega

section

variable {p : Pager} {entries : List (Value × Value)} {f : PageFields} {w : PageWindow}
  {m : Memory} {matching : List Value} {last : Nat}

/-- The page count that is reported. -/
theorem pages?_eq_lastPage (hsettings : p.settings.IsTyped) (hf : f.InBounds) {records : Nat}
    (hrecords : records ≤ 2 ^ 53) :
    ∃ pages, (PageWindow.ofFields p.settings f).size.pages? records = some pages ∧
      max 1 pages = lastPage records (pageSize p.settings f) := by
  have hsize := PageWindow.one_le_size hsettings hf
  rw [Quantity.pages?_of_isInteger (PageWindow.isInteger_size hsettings)]
  exact Number.max_one_ceilQuotient (by omega) hrecords

/-- What a page reports about itself. -/
def pageInfo (p : Pager) (f : PageFields) (counts : PageCounts) : PageInfo :=
  let w := PageWindow.ofFields p.settings f
  ⟨w.number, w.size, w.padding, p.settings.maxPageSize, some counts⟩

/-- The links of a page. -/
def pageLinks (p : Pager) (entries : List (Value × Value)) (f : PageFields) (last : Int) :
    PageLinks :=
  let w := PageWindow.ofFields p.settings f
  .around (linkText p.base entries) w.number (some last) (w.number < last)

/-- **What a counted page comes to**, whatever kind of collection counts its records: an error past
the last page, and else the window of the page with its links. -/
theorem result_beginPage_of_count {C : Type} [Collection C] {collection : C} {records : Nat}
    (hsettings : p.settings.IsTyped) (hread : PageFields.read (pageEntries entries) = .ok f)
    (hcount : (Collection.count collection).result = .ok records) (hrecords : records ≤ 2 ^ 53)
    (hw : PageWindow.ofFields p.settings f = w)
    (hlast : lastPage records (pageSize p.settings f) = last) :
    (p.beginPage entries collection).result =
      if last < w.number then .error (.pageOutOfRange (.int w.number) (.int last))
      else do
        let page ← (window (.whole w.start) w.size collection).result
        let links ← linksOf (linkTo p.base entries) w.number (some last) (w.number < last)
        return (.numbered (pageInfo p f ⟨records, last⟩) links, page) := by
  obtain ⟨pages, hpages, hmax⟩ :=
    pages?_eq_lastPage hsettings (PageFields.bounds_of_read hread) hrecords
  have hoffset := PageWindow.offset?_of_integer (PageWindow.isInteger_size (f := f) hsettings)
  rw [hlast] at hmax
  unfold Pager.beginPage
  rw [Traced.result_bind_of_ok (a := f) hread, Traced.result_bind_of_ok hcount,
    Traced.result_bind_of_ok (a := pages) (by rw [hpages]; rfl)]
  simp only [hmax]
  subst hw
  split
  · rfl
  · rw [Traced.result_bind_of_ok (a := .whole _) (by rw [hoffset]; rfl),
      Traced.result_bind_of_ok (a := ()) rfl, Traced.result_bind]
    refine congrArg _ (funext fun page => ?_)
    rw [Traced.result_bind, Traced.result_ofExcept]
    rfl

/-- A page past the last one is refused. -/
theorem result_beginPage_of_lt (hsettings : p.settings.IsTyped)
    (hread : PageFields.read (pageEntries entries) = .ok f) (hmatching : m.matching = .ok matching)
    (hcount : matching.length ≤ 2 ^ 53) (hw : PageWindow.ofFields p.settings f = w)
    (hlast : lastPage matching.length (pageSize p.settings f) = last) (hlt : last < w.number) :
    (p.beginPage entries (Selection.live m)).result =
      .error (.pageOutOfRange (.int w.number) (.int last)) := by
  rw [result_beginPage_of_count hsettings hread (Selection.result_count_live hmatching) hcount hw
    hlast, if_pos hlt]

theorem eq_some_of_inRange {α : Type} {found : Option α} {a : α}
    (h : (Traced.ofExcept (inRange found)).result = .ok a) : found = some a := by
  cases found with
  | none => cases h
  | some b =>
    cases h
    rfl

/-- **When a page is begun**: the fields can be read, the records can be counted and fill a number
of pages in range, the page is not after the last one, it starts at a number in range, and its links
can be written. -/
theorem result_beginPage_eq_ok_iff {details : Details} {page : Selection Memory} :
    (p.beginPage entries (Selection.live m)).result = .ok (details, page) ↔
      ∃ f records pages offset, PageFields.read (pageEntries entries) = .ok f ∧
        m.size = .ok records ∧
        (PageWindow.ofFields p.settings f).size.pages? records = some pages ∧
        (PageWindow.ofFields p.settings f).number ≤ max 1 pages ∧
        (PageWindow.ofFields p.settings f).offset? = some offset ∧ HasLinks entries ∧
        details = .numbered (pageInfo p f ⟨records, max 1 pages⟩)
          (pageLinks p entries f (max 1 pages)) ∧
        page = .live { m with
          offset := offset.toValue
          limit := (PageWindow.ofFields p.settings f).size.toValue } := by
  unfold Pager.beginPage
  constructor
  · intro h
    obtain ⟨f, hread, h⟩ := Traced.result_bind_eq_ok_iff.mp h
    obtain ⟨records, hrecords, h⟩ := Traced.result_bind_eq_ok_iff.mp h
    obtain ⟨pages, hpages, h⟩ := Traced.result_bind_eq_ok_iff.mp h
    simp only at h
    split at h
    · cases h
    · next hle =>
      obtain ⟨offset, hoffset, h⟩ := Traced.result_bind_eq_ok_iff.mp h
      obtain ⟨-, -, h⟩ := Traced.result_bind_eq_ok_iff.mp h
      obtain ⟨_, hwindow, h⟩ := Traced.result_bind_eq_ok_iff.mp h
      obtain ⟨links, hlinks, h⟩ := Traced.result_bind_eq_ok_iff.mp h
      obtain ⟨hhas, rfl⟩ := linksOf_eq_ok_iff.mp hlinks
      cases hwindow
      cases h
      exact ⟨f, records, pages, offset, hread, hrecords, eq_some_of_inRange hpages, by omega,
        eq_some_of_inRange hoffset, hhas, rfl, rfl⟩
  · rintro ⟨f, records, pages, offset, hread, hrecords, hpages, hle, hoffset, hhas, rfl, rfl⟩
    rw [Traced.result_bind_of_ok (a := f) hread, Traced.result_bind_of_ok (a := records) hrecords,
      Traced.result_bind_of_ok (a := pages) (by rw [hpages]; rfl)]
    simp only
    rw [if_neg (by omega), Traced.result_bind_of_ok (a := offset) (by rw [hoffset]; rfl),
      linksOf_of_hasLinks hhas]
    rfl

/-- A page up to the last one is a window of the collection. -/
theorem result_beginPage (hsettings : p.settings.IsTyped)
    (hread : PageFields.read (pageEntries entries) = .ok f) (hmatching : m.matching = .ok matching)
    (hcount : matching.length ≤ 2 ^ 53) (hw : PageWindow.ofFields p.settings f = w)
    (hlast : lastPage matching.length (pageSize p.settings f) = last) (hle : w.number ≤ last)
    (hlinks : HasLinks entries) :
    (p.beginPage entries (Selection.live m)).result =
      .ok (.numbered ⟨w.number, w.size, w.padding, p.settings.maxPageSize,
          some ⟨matching.length, last⟩⟩
          (.around (linkText p.base entries) w.number (some last) (w.number < last)),
        .live { m with offset := .int w.start, limit := w.size.toValue }) := by
  rw [result_beginPage_of_count hsettings hread (Selection.result_count_live hmatching) hcount hw
    hlast, if_neg (Int.not_lt.mpr hle), linksOf_of_hasLinks hlinks]
  subst hw
  rfl

/-- No page up to the last one is given if its links cannot be written. -/
theorem result_beginPage_of_looseInLinks? (hsettings : p.settings.IsTyped)
    (hread : PageFields.read (pageEntries entries) = .ok f) (hmatching : m.matching = .ok matching)
    (hcount : matching.length ≤ 2 ^ 53) (hw : PageWindow.ofFields p.settings f = w)
    (hlast : lastPage matching.length (pageSize p.settings f) = last) (hle : w.number ≤ last)
    {text : LooseText} (hlinks : looseInLinks? entries = some text) :
    (p.beginPage entries (Selection.live m)).result = .error (.unencodable text) := by
  rw [result_beginPage_of_count hsettings hread (Selection.result_count_live hmatching) hcount hw
    hlast, if_neg (Int.not_lt.mpr hle), linksOf_of_looseInLinks? hlinks]
  rfl

/-- A pager for numbered pages gives the page that it has begun. -/
theorem result_paginate_of_page {C : Type} [Collection C] (hkind : p.kind = .page)
    (hentries : p.entries = .ok entries) (collection : Selection C) :
    (p.paginate collection).result = (p.beginPage entries collection).result.map Prod.swap := by
  unfold Pager.paginate Pager.begin
  rw [hkind, hentries]
  simp only [Traced.result_bind, Traced.result_ofExcept]
  cases h : (p.beginPage entries collection).result with
  | error e =>
    simp only [bind, Except.bind, h]
    rfl
  | ok page =>
    simp only [bind, Except.bind, h]
    rfl

theorem result_paginate_eq_ok_iff (hkind : p.kind = .page) (hentries : p.entries = .ok entries)
    {details : Details} {page : Selection Memory} :
    (p.paginate (Selection.live m)).result = .ok (page, details) ↔
      (p.beginPage entries (Selection.live m)).result = .ok (details, page) := by
  rw [result_paginate_of_page hkind hentries]
  cases (p.beginPage entries (Selection.live m)).result with
  | error e =>
    constructor
    · rintro ⟨⟩
    · rintro ⟨⟩
  | ok begun =>
    constructor
    · rintro ⟨⟩
      rfl
    · rintro ⟨⟩
      rfl

/-- What a pager for numbered pages gives is a page that it has begun. -/
theorem exists_of_paginate_of_page (hkind : p.kind = .page) {page : Selection Memory}
    {details : Details} (h : (p.paginate (Selection.live m)).result = .ok (page, details)) :
    ∃ entries, p.entries = .ok entries ∧
      (p.beginPage entries (Selection.live m)).result = .ok (details, page) := by
  cases hentries : p.entries with
  | error e =>
    unfold Pager.paginate Pager.begin at h
    rw [hkind, hentries] at h
    cases h
  | ok entries => exact ⟨entries, rfl, (result_paginate_eq_ok_iff hkind hentries).mp h⟩

/-- A page that is begun is a window of the collection. -/
theorem exists_of_result_beginPage (hsettings : p.settings.IsTyped) {details : Details}
    {page : Selection Memory}
    (h : (p.beginPage entries (Selection.live m)).result = .ok (details, page)) :
    ∃ f matching, PageFields.read (pageEntries entries) = .ok f ∧ m.matching = .ok matching ∧
      page = .live { m with
        offset := .int (PageWindow.ofFields p.settings f).start
        limit := (PageWindow.ofFields p.settings f).size.toValue } := by
  obtain ⟨f, records, pages, offset, hread, hrecords, -, -, hoffset, -, -, rfl⟩ :=
    result_beginPage_eq_ok_iff.mp h
  obtain ⟨matching, hmatching, -⟩ := Sorting.eq_ok_of_bind hrecords
  rw [PageWindow.offset?_of_integer (PageWindow.isInteger_size hsettings)] at hoffset
  cases hoffset
  exact ⟨f, matching, hread, hmatching, rfl⟩

/-- A collection with the window of a page gives the records of the page. -/
theorem rows_of_pageWindow {settings : Settings} (hsettings : settings.IsTyped)
    (hf : f.InBounds) :
    Memory.rows { m with
        offset := .int (PageWindow.ofFields settings f).start
        limit := (PageWindow.ofFields settings f).size.toValue } =
      m.sorted.map (PageWindow.ofFields settings f).cut := by
  have hsize := PageWindow.one_le_size hsettings hf
  rw [Memory.rows_of_window (Memory.start_of_wholeNumber? rfl)
    (Quantity.toValue_wholeNumber? (PageWindow.isInteger_size hsettings))
    (PageWindow.start_nonneg hsettings hf) (by omega)]
  rfl

/-- The records of a page. -/
theorem rows_of_page (hsettings : p.settings.IsTyped) (hf : f.InBounds)
    (hw : PageWindow.ofFields p.settings f = w) {records : List Value}
    (hrecords : m.sorted = .ok records) :
    Memory.rows { m with offset := .int w.start, limit := w.size.toValue } =
      .ok (pageRows w.size.truncate w.padding w.number records) := by
  subst hw
  have hsize := PageWindow.one_le_size hsettings hf
  have hpadding : 0 ≤ (PageWindow.ofFields p.settings f).padding := hf.padding_nonneg
  have hnumber : 1 ≤ (PageWindow.ofFields p.settings f).number := hf.one_le_number
  rw [rows_of_pageWindow hsettings hf, hrecords, pageRows_eq_take_drop (by omega) hpadding hnumber]
  rfl

end

/-! ## All pages -/

/-- **All pages together** are the records after the padding. -/
theorem flatMap_pages {size : Nat} (hsize : 0 < size) {padding : Int} (hpadding : 0 ≤ padding)
    (records : List Value) :
    ((List.range (lastPage records.length size)).flatMap fun i : Nat =>
        pageRows size padding (i + 1) records) =
      records.drop padding.toNat := by
  have hpage (i : Nat) : pageRows size padding (i + 1) records =
      ((records.drop padding.toNat).drop (size * i)).take size := by
    have hstart : (size : Int) * ((i : Int) + 1 - 1) + padding =
        (padding.toNat + size * i : Nat) := by
      push_cast
      rw [Int.toNat_of_nonneg hpadding]
      ring
    rw [pageRows_eq_take_drop (by omega) hpadding (by omega), hstart, List.drop_drop]
    rfl
  have hlength := le_mul_lastPage hsize records.length
  simp only [hpage]
  rw [flatMap_windows, List.take_of_length_le]
  rw [List.length_drop]
  omega

/-- **The pages of a request partition its records.** The page size is the one that is asked for or
else the default one, but not more than the largest one, and it is at least one. Exactly the pages
from one to the last one that is reported succeed, each with its part of the sorted records and not
with more than the page size, whatever window the collection had. Together they are the sorted
records after the padding. A request of characters only always has links
(`hasLinks_of_areEncodable`). -/
theorem pages_partition_records {settings : Settings} {entries : List (Value × Value)}
    {f : PageFields} {m : Memory} {records : List Value} (base : Option String)
    (hsettings : settings.IsTyped) (hread : PageFields.read (pageEntries entries) = .ok f)
    (hlinks : HasLinks entries) (hrecords : m.unwindowed.rows = .ok records)
    (hcount : records.length ≤ 2 ^ 53) :
    ∃ size last : Nat,
      (size : Int) =
        min (f.size.getD settings.defaultPageSize.truncate) settings.maxPageSize.truncate ∧
      1 ≤ size ∧ size ≤ settings.maxPageSize.truncate ∧ last = lastPage records.length size ∧
      (∀ number : Int, 1 ≤ number → number ≤ last →
        ∃ info links page,
          ((pagerAt settings base entries number).paginate (Selection.live m)).result =
              .ok (.live page, .numbered info links) ∧
            info.number = number ∧ info.size.truncate = size ∧ info.padding = f.padding ∧
            info.counts = some ⟨records.length, last⟩ ∧
            page.rows = .ok (pageRows size f.padding number records) ∧
            (pageRows size f.padding number records).length ≤ size) ∧
      (∀ number : Int, last < number →
        ((pagerAt settings base entries number).paginate (Selection.live m)).result =
          .error (.pageOutOfRange (.int number) (.int last))) ∧
      (∀ number : Int, number < 1 →
        ((pagerAt settings base entries number).paginate (Selection.live m)).result =
          .error (invalid [("number", some (.below 1))])) ∧
      ((List.range last).flatMap fun i : Nat => pageRows size f.padding (i + 1) records) =
        records.drop f.padding.toNat := by
  have hf := PageFields.bounds_of_read hread
  have hsize := PageWindow.one_le_size hsettings hf
  have hsizeNat : (pageSize settings f : Int) = (PageWindow.ofFields settings f).size.truncate :=
    Int.toNat_of_nonneg (by omega)
  rw [Memory.rows_unwindowed] at hrecords
  obtain ⟨matching, hmatching, hperm⟩ := perm_of_sorted hrecords
  have hlength := hperm.length_eq
  refine ⟨pageSize settings f, lastPage records.length (pageSize settings f), ?_, by omega, ?_, rfl,
    ?_, ?_, ?_, flatMap_pages (by omega) hf.padding_nonneg records⟩
  · rw [hsizeNat, PageWindow.truncate_size hsettings, PageWindow.truncate_askedSize]
  · rw [hsizeNat]
    exact PageWindow.size_le_largest hsettings
  · intro number hnumber hle
    have hpage := read_entriesAt hread hnumber
    have hbegin := result_beginPage (p := pagerAt settings base entries number) (m := m)
      hsettings hpage hmatching (by omega) rfl rfl (by rw [← hlength]; exact hle)
      (hasLinks_entriesAt.mpr hlinks)
    have hresult := result_paginate_of_page (p := pagerAt settings base entries number) rfl
      (entries_pagerAt ..) (.live m)
    rw [hbegin, ← hlength] at hresult
    refine ⟨_, _, _, hresult, rfl, hsizeNat.symm, rfl, rfl, ?_, ?_⟩
    · rw [hsizeNat]
      exact rows_of_page hsettings (PageFields.bounds_of_read hpage) rfl hrecords
    · have := length_pageRows_le (show (0 : Int) ≤ pageSize settings f by omega)
        hf.padding_nonneg hnumber records
      omega
  · intro number hlt
    have hnumber : 1 ≤ number := by
      have := Nat.le_max_left 1 (windowCount records.length (pageSize settings f))
      unfold lastPage at hlt
      omega
    rw [result_paginate_of_page rfl (entries_pagerAt ..),
      result_beginPage_of_lt (p := pagerAt settings base entries number) hsettings
        (read_entriesAt hread hnumber) hmatching (by omega) rfl rfl (by rw [← hlength]; exact hlt),
      hlength]
    rfl
  · intro number hlt
    rw [result_paginate_of_page rfl (entries_pagerAt ..), Pager.beginPage, Traced.result_bind,
      Traced.result_ofExcept, pageEntries_entriesAt, PageFields.read_put_number_of_lt hread hlt]
    rfl

/-- Three records, the first one skipped, in pages of two because more are asked for than a page may
hold: the first page holds the other two, the second one is empty, and there is no third one. -/
theorem pages_partition_three_records :
    ∃ (settings : Settings) (entries : List (Value × Value)) (m : Memory),
      settings.IsTyped ∧ settings.maxPageSize = .whole 2 ∧
      entries = [(.str "page", .map [(.str "size", .int 3), (.str "offset", .int 1)])] ∧
      PageFields.read (pageEntries entries) = .ok ⟨none, some 3, some 1, none⟩ ∧
      HasLinks entries ∧ m.limit = .int 1 ∧
      m.unwindowed.rows =
        .ok [.record [("n", .int 1)], .record [("n", .int 2)], .record [("n", .int 3)]] ∧
      (∃ info links page,
        ((pagerAt settings none entries 1).paginate (Selection.live m)).result =
            .ok (.live page, .numbered info links) ∧
          info.size.truncate = 2 ∧ info.padding = 1 ∧ info.counts = some ⟨3, 2⟩ ∧
          page.rows = .ok [.record [("n", .int 2)], .record [("n", .int 3)]]) ∧
      (∃ info links page,
        ((pagerAt settings none entries 2).paginate (Selection.live m)).result =
            .ok (.live page, .numbered info links) ∧
          info.size.truncate = 2 ∧ page.rows = .ok []) ∧
      ((pagerAt settings none entries 3).paginate (Selection.live m)).result =
        .error (.pageOutOfRange (.int 3) (.int 2)) := by
  let settings : Settings :=
    { Settings.default with
      defaultPageSize := .whole 1
      maxPageSize := .whole 2
      one_le_default := by decide
      default_le_max := by decide }
  let entries : List (Value × Value) :=
    [(.str "page", .map [(.str "size", .int 3), (.str "offset", .int 1)])]
  let m : Memory := {
    items := [.record [("n", .int 3)], .record [("n", .int 1)], .record [("n", .int 2)]]
    ordering := [(.str "n", .asc)]
    limit := .int 1 }
  have hsettings : settings.IsTyped := ⟨rfl, rfl, rfl⟩
  have hread : PageFields.read (pageEntries entries) = .ok ⟨none, some 3, some 1, none⟩ := by rfl
  have hlinks : HasLinks entries := hasLinks_of_areEncodable rfl
  have hrows : m.unwindowed.rows =
      .ok [.record [("n", .int 1)], .record [("n", .int 2)], .record [("n", .int 3)]] := by
    have hsortable : ∀ clause ∈ m.ordering, Sortable clause m.items := by
      intro clause hclause
      obtain rfl := List.mem_singleton.mp hclause
      exact ⟨fun item _ => ⟨_, rfl⟩, by decide +kernel⟩
    have hplaces : ([1, 2, 0] : List (Fin 3)).Perm (List.finRange 3) := by decide
    rw [Memory.rows_unwindowed]
    exact foldrM_sortByClause_of_places hsortable rfl hplaces (by decide +kernel)
  obtain ⟨size, last, hsize, -, -, hlast, hpages, hbeyond, -, -⟩ :=
    pages_partition_records none hsettings hread hlinks hrows (by decide)
  obtain rfl : size = 2 := Int.ofNat_inj.mp hsize
  obtain rfl : last = 2 := hlast
  obtain ⟨info, links, page, hfirst, -, hsize, hpadding, hcounts, hpage, -⟩ :=
    hpages 1 (by decide) (by decide)
  obtain ⟨info', links', page', hsecond, -, hsize', -, -, hpage', -⟩ :=
    hpages 2 (by decide) (by decide)
  exact ⟨settings, entries, m, hsettings, rfl, rfl, hread, hlinks, rfl, hrows,
    ⟨info, links, page, hfirst, hsize, hpadding, hcounts, hpage⟩,
    ⟨info', links', page', hsecond, hsize', hpage'⟩, hbeyond 3 (by decide)⟩

end ResourceQuery.Pagination
