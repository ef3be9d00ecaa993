import ResourceQuery.Proofs.Number.DoubleRange
import ResourceQuery.Proofs.Pagination.Partition

/-!
# Numbered pages without a count

A page without a count fetches one record more than it holds and reports a next page if that record
is there. It holds the records of the numbered page and reports the same, except for what needs the
count: a page past the last one is empty where a numbered one is refused, and a next page is known
by its records, where a numbered page knows it by the count, from which the padding is not taken.

Headlines:
* **`PageWindow.isFollowed`**: whether there are records after a page.
* **`result_beginCountless`**: a page without a count, its records and what it reports.
* **`isFollowed_iff`**, **`lt_lastPage_of_isFollowed`**: what a next page means in records and in
  pages.
* **`Walk`**: pages that are asked for as long as there is a next one; **`exists_walk`**: such a
  walk ends, and what it comes past.
* **`countless_refines_numbered`**: both kinds of pages side by side.
-/

namespace ResourceQuery.Pagination

/-! ## A page without a count -/

theorem shift?_of_isInteger {q : Quantity} (h : q.isInteger = true) (more : Int) :
    q.shift? more = some (.whole (q.truncate + more)) := by
  cases q with
  | real x => cases h
  | _ => rfl

theorem firstRows_of_isInteger {q : Quantity} (h : q.isInteger = true) (rows : List Value) :
    firstRows q rows = .ok (rows.take q.truncate.toNat) := by
  cases q with
  | real x => cases h
  | _ => rfl

/-- Are there records after a page? -/
def PageWindow.isFollowed (w : PageWindow) (records : List Value) : Bool :=
  decide (w.start + w.size.truncate < records.length)

theorem isSome_next_around (link : Int → String) (number : Int) (last : Option Int)
    (hasNext : Bool) : (PageLinks.around link number last hasNext).next.isSome = hasNext := by
  cases hasNext with
  | false => rfl
  | true => rfl

/-- What a page without a count reports. -/
def countlessDetails (p : Pager) (entries : List (Value × Value)) (w : PageWindow)
    (records : List Value) : Details :=
  .numbered ⟨w.number, w.size, w.padding, p.settings.maxPageSize, none⟩
    (.around (linkText p.base entries) w.number none (w.isFollowed records))

section

variable {p : Pager} {entries : List (Value × Value)} {f : PageFields} {w : PageWindow}
  {m : Memory} {records : List Value}

/-- The number of the page after a page can be written if there are records on it. -/
theorem isWritable_of_isFollowed (h : w.IsProper) (hcount : records.length ≤ 2 ^ 53)
    (hnext : w.isFollowed records = true) : Number.isWritable (w.number + 1) = true := by
  have hsize := h.one_le_size
  have hnumber := h.one_le_number
  have hpadding := h.padding_nonneg
  have hfollowed := of_decide_eq_true hnext
  unfold PageWindow.start at hfollowed
  -- each page before this one holds a record, so that its number is at most that of the records
  have hle : w.number ≤ records.length := by nlinarith
  have hgreatest : 2 ^ 53 + 1 ≤ Number.greatestDouble := by decide +kernel
  exact Number.isWritable_of_natAbs_le (by omega)

/-- The records that are fetched: one more than the page holds, if it is there. -/
theorem rows_of_fetched (h : w.IsProper) (hrecords : m.sorted = .ok records) :
    Memory.rows { m with offset := .int w.start, limit := .int (w.size.truncate + 1) } =
      .ok ((records.drop w.start.toNat).take (w.size.truncate + 1).toNat) := by
  have hsize := h.one_le_size
  rw [Memory.rows_of_window (Memory.start_of_wholeNumber? rfl) rfl h.start_nonneg (by omega)]
  show Except.map _ m.sorted = _
  rw [hrecords]
  rfl

/-- The record after a page is among those that are fetched if it is there. -/
theorem isBelow_fetched (h : w.IsProper) (records : List Value) :
    w.size.isBelow (.whole
      ((records.drop w.start.toNat).take (w.size.truncate + 1).toNat).length) =
        w.isFollowed records := by
  have hsize := h.one_le_size
  have hstart := h.start_nonneg
  rw [Quantity.isBelow_of_isInteger h.isInteger_size rfl, PageWindow.isFollowed, decide_eq_decide,
    List.length_take, List.length_drop, Quantity.truncate]
  omega

/-- The page itself is what is fetched without the record after it. -/
theorem firstRows_fetched (h : w.IsProper) (records : List Value) :
    firstRows w.size ((records.drop w.start.toNat).take (w.size.truncate + 1).toNat) =
      .ok (w.cut records) := by
  have hsize := h.one_le_size
  rw [firstRows_of_isInteger h.isInteger_size, List.take_take, Nat.min_eq_left (by omega)]
  rfl

/-- **A page without a count** holds the records of its window, if it has links. -/
theorem result_beginCountless (hsettings : p.settings.IsTyped)
    (hread : PageFields.read (pageEntries entries) = .ok f) (hrecords : m.sorted = .ok records)
    (hcount : records.length ≤ 2 ^ 53) (hw : PageWindow.ofFields p.settings f = w) :
    (p.beginCountless entries (Selection.live m)).result = do
      let links ← linksOf (linkTo p.base entries) w.number none (w.isFollowed records)
      return (.numbered ⟨w.number, w.size, w.padding, p.settings.maxPageSize, none⟩ links,
        Traced.ofExcept (.ok (w.cut records))) := by
  have hproper : w.IsProper :=
    hw ▸ PageWindow.isProper_ofFields hsettings (PageFields.bounds_of_read hread)
  have hoffset := PageWindow.offset?_of_integer hproper.isInteger_size
  have hshift := shift?_of_isInteger hproper.isInteger_size 1
  unfold Pager.beginCountless
  rw [Traced.result_bind_of_ok (a := f) hread]
  simp only [hw]
  rw [Traced.result_bind_of_ok (a := .whole w.start) (by rw [hoffset]; rfl),
    Traced.result_bind_of_ok (Traced.result_log _),
    Traced.result_bind_of_ok (a := .live { m with offset := .int w.start }) rfl,
    Traced.result_bind_of_ok (a := .whole (w.size.truncate + 1)) (by rw [hshift]; rfl),
    Traced.result_bind_of_ok
      (a := .live { m with offset := .int w.start, limit := .int (w.size.truncate + 1) }) rfl,
    Traced.result_bind_of_ok (rows_of_fetched hproper hrecords), isBelow_fetched hproper,
    firstRows_fetched hproper, Traced.result_bind, Traced.result_ofExcept]
  refine congrArg _ (funext fun links => ?_)
  cases hnext : w.isFollowed records with
  | false => rfl
  | true =>
    have hwritable : Pager.ensureWritable (w.number + 1) = .ok () :=
      if_pos (isWritable_of_isFollowed hproper hcount hnext)
    rw [if_pos rfl, Traced.result_bind_of_ok (a := ()) (by rw [hwritable]; rfl)]
    rfl

/-- A pager without a count gives no page if its links cannot be written. -/
theorem result_paginate_of_countless_of_looseInLinks? (hkind : p.kind = .countless)
    (hentries : p.entries = .ok entries) (hsettings : p.settings.IsTyped)
    (hread : PageFields.read (pageEntries entries) = .ok f) {text : LooseText}
    (hlinks : looseInLinks? entries = some text) (hrecords : m.sorted = .ok records)
    (hcount : records.length ≤ 2 ^ 53) :
    (p.paginate (Selection.live m)).result = .error (.unencodable text) := by
  have hbegin : (p.beginCountless entries (Selection.live m)).result =
      .error (.unencodable text) := by
    rw [result_beginCountless hsettings hread hrecords hcount rfl, linksOf_of_looseInLinks? hlinks]
    rfl
  refine Traced.result_bind_of_error ?_ _
  unfold Pager.begin
  rw [hkind, hentries]
  exact Traced.result_bind_of_error hbegin _

/-- A pager without a count gives the records of its window. -/
theorem result_paginate_of_countless (hkind : p.kind = .countless)
    (hentries : p.entries = .ok entries) (hsettings : p.settings.IsTyped)
    (hread : PageFields.read (pageEntries entries) = .ok f) (hlinks : HasLinks entries)
    (hrecords : m.sorted = .ok records) (hcount : records.length ≤ 2 ^ 53)
    (hw : PageWindow.ofFields p.settings f = w) :
    (p.paginate (Selection.live m)).result =
      .ok (.ofRows (w.cut records), countlessDetails p entries w records) := by
  have hbegin : (p.begin (Selection.live m)).result =
      .ok (countlessDetails p entries w records,
        (Traced.ofExcept (.ok (w.cut records)) >>= fun rows => pure (.ofRows rows))) := by
    unfold Pager.begin
    rw [hkind, hentries]
    show (p.beginCountless entries (Selection.live m) >>= _).result = _
    rw [Traced.result_bind, result_beginCountless hsettings hread hrecords hcount hw,
      linksOf_of_hasLinks hlinks]
    rfl
  rw [Pager.paginate, Traced.result_bind_of_ok hbegin]
  rfl

end

/-! ## Next pages -/

/-- There is a page after the one of a number exactly if that one is full and records are left. -/
theorem lt_lastPage_iff {size number : Nat} (hsize : 0 < size) (hnumber : 1 ≤ number)
    (records : Nat) : number < lastPage records size ↔ size * number < records := by
  rw [lastPage, ← lt_windowCount_iff hsize]
  omega

namespace PageWindow

variable {w : PageWindow} {records : List Value}

/-- The window of the page of a number, of the size and with the padding of another page. -/
def withNumber (w : PageWindow) (number : Int) : PageWindow := { w with number := number }

/-- The window of the page after a page. -/
def next (w : PageWindow) : PageWindow := w.withNumber (w.number + 1)

theorem start_next (w : PageWindow) : w.next.start = w.start + w.size.truncate := by
  unfold next withNumber start
  ring

theorem start_add_size (w : PageWindow) :
    w.start + w.size.truncate = w.size.truncate * w.number + w.padding := by
  unfold start
  ring

/-- Nothing lies after a page that is not followed. -/
theorem drop_of_not_isFollowed (h : w.isFollowed records = false) :
    records.drop w.next.start.toNat = [] := by
  have hle := of_decide_eq_false h
  rw [start_next]
  exact List.drop_eq_nil_of_le (by omega)

namespace IsProper

theorem withNumber (h : w.IsProper) {number : Int} (hnumber : 1 ≤ number) :
    (w.withNumber number).IsProper :=
  ⟨h.isInteger_size, h.one_le_size, hnumber, h.padding_nonneg⟩

/-- The size and the number of a page are natural numbers from one on. -/
theorem exists_nat (h : w.IsProper) :
    ∃ size number : Nat, 1 ≤ size ∧ 1 ≤ number ∧ w.size.truncate = size ∧ w.number = number := by
  have hsize := h.one_le_size
  have hnumber := h.one_le_number
  exact ⟨w.size.truncate.toNat, w.number.toNat, by omega, by omega, by omega, by omega⟩

/-- **A page is followed** if there are records on the page after it. -/
theorem isFollowed_iff (h : w.IsProper) :
    w.isFollowed records = true ↔ w.next.cut records ≠ [] := by
  obtain ⟨size, -, hsize, -, hw_size, -⟩ := h.exists_nat
  have hstart := h.start_nonneg
  have hcut : w.next.cut records = (records.drop (w.start + size).toNat).take size := by
    rw [cut, start_next, hw_size, next, PageWindow.withNumber, hw_size, Int.toNat_natCast]
  rw [isFollowed, decide_eq_true_eq, hw_size, hcut, ← List.length_pos_iff, List.length_take,
    List.length_drop]
  omega

/-- There is a numbered page after a page with records after it. -/
theorem lt_lastPage_of_isFollowed (h : w.IsProper) (hnext : w.isFollowed records = true) :
    w.number < lastPage records.length w.size.truncate.toNat := by
  obtain ⟨size, number, hsize, hnumber, hw_size, hw_number⟩ := h.exists_nat
  have hpadding := h.padding_nonneg
  rw [isFollowed, decide_eq_true_eq, start_add_size, hw_size, hw_number] at hnext
  rw [hw_number, hw_size, Int.toNat_natCast, Int.ofNat_lt, lt_lastPage_iff hsize hnumber]
  zify
  omega

/-- Without padding there is a next page by the records exactly if there is one by the count. -/
theorem isFollowed_eq_decide (h : w.IsProper) (hpadding : w.padding = 0) :
    w.isFollowed records = decide (w.number < lastPage records.length w.size.truncate.toNat) := by
  obtain ⟨size, number, hsize, hnumber, hw_size, hw_number⟩ := h.exists_nat
  rw [isFollowed, decide_eq_decide, start_add_size, hw_size, hw_number, hpadding,
    Int.toNat_natCast, Int.ofNat_lt, lt_lastPage_iff hsize hnumber]
  zify
  omega

/-- Past the last page there are no records. -/
theorem cut_of_lastPage_lt (h : w.IsProper)
    (hlt : lastPage records.length w.size.truncate.toNat < w.number) :
    w.cut records = [] ∧ w.isFollowed records = false := by
  obtain ⟨size, number, hsize, hnumber, hw_size, hw_number⟩ := h.exists_nat
  have hpadding := h.padding_nonneg
  rw [hw_number, hw_size, Int.toNat_natCast, Int.ofNat_lt] at hlt
  have hone : 1 ≤ lastPage records.length size := Nat.le_max_left ..
  have hrecords : records.length ≤ size * (number - 1) := by
    refine Nat.le_of_not_lt fun hmore => ?_
    have := (lt_lastPage_iff hsize (show 1 ≤ number - 1 by omega) _).mpr hmore
    omega
  have hstart : (records.length : Int) ≤ w.start := by
    unfold start
    rw [hw_size, hw_number]
    zify [hnumber] at hrecords
    omega
  refine ⟨?_, ?_⟩
  · rw [cut, List.drop_eq_nil_of_le (by omega), List.take_nil]
  · rw [isFollowed, decide_eq_false_iff_not, hw_size]
    omega

/-- What lies from a page on is the page and what lies from the next one on. -/
theorem cut_append_drop (h : w.IsProper) (records : List Value) :
    w.cut records ++ records.drop w.next.start.toNat = records.drop w.start.toNat := by
  have hsize := h.one_le_size
  have hstart := h.start_nonneg
  have hnext : w.next.start.toNat = w.start.toNat + w.size.truncate.toNat := by
    rw [start_next]
    omega
  rw [cut, hnext, ← List.drop_drop, List.take_append_drop]

/-- Less lies from the next page on than from a page that is followed. -/
theorem sub_start_next_lt (h : w.IsProper) (hnext : w.isFollowed records = true) :
    records.length - w.next.start.toNat < records.length - w.start.toNat := by
  have hsize := h.one_le_size
  have hstart := h.start_nonneg
  have hlt := of_decide_eq_true hnext
  rw [start_next]
  omega

end IsProper

end PageWindow

/-! ## Walking on while there is a next page -/

/-- Pages that are asked for one after the other as long as there is a next one, and their
records. -/
inductive Walk (ask : Int → Except QueryError (Selection Memory × Details)) :
    Int → List (List Value) → Prop where
  | stop {number : Int} {rows : List Value} {info : PageInfo} {links : PageLinks}
      (hask : ask number = .ok (.ofRows rows, .numbered info links)) (hnext : links.next = none) :
      Walk ask number [rows]
  | move {number : Int} {rows : List Value} {info : PageInfo} {links : PageLinks}
      {pages : List (List Value)} (hask : ask number = .ok (.ofRows rows, .numbered info links))
      (hnext : links.next.isSome = true) (rest : Walk ask (number + 1) pages) :
      Walk ask number (rows :: pages)

/-- There is only one walk from a page. -/
theorem Walk.unique {ask : Int → Except QueryError (Selection Memory × Details)} {number : Int}
    {pages pages' : List (List Value)} (h : Walk ask number pages) (h' : Walk ask number pages') :
    pages' = pages := by
  induction h generalizing pages' with
  | stop hask hnext =>
    cases h' with
    | stop hask' _ =>
      cases hask.symm.trans hask'
      rfl
    | move hask' hnext' _ =>
      cases hask.symm.trans hask'
      rw [hnext] at hnext'
      cases hnext'
  | move hask hnext _ ih =>
    cases h' with
    | stop hask' hnext' =>
      cases hask.symm.trans hask'
      rw [hnext'] at hnext
      cases hnext
    | move hask' _ rest' =>
      cases hask.symm.trans hask'
      rw [ih rest']

/-- The same pager, but one that does not count. -/
def Pager.uncounted (p : Pager) : Pager := { p with kind := .countless }

/-- What comes of asking for a page of a request without a count. -/
def askCountless (settings : Settings) (base : Option String) (entries : List (Value × Value))
    (m : Memory) (number : Int) : Except QueryError (Selection Memory × Details) :=
  ((pagerAt settings base entries number).uncounted.paginate (Selection.live m)).result

section

variable {settings : Settings} {entries : List (Value × Value)} {f : PageFields} {m : Memory}
  {records : List Value} {w : PageWindow} {number : Int}

/-- The page of each number from one on can be asked for. -/
theorem askCountless_eq (base : Option String) (hsettings : settings.IsTyped)
    (hread : PageFields.read (pageEntries entries) = .ok f) (hlinks : HasLinks entries)
    (hrecords : m.sorted = .ok records) (hcount : records.length ≤ 2 ^ 53)
    (hw : PageWindow.ofFields settings f = w) (hnumber : 1 ≤ number) :
    ∃ links, askCountless settings base entries m number =
        .ok (.ofRows ((w.withNumber number).cut records),
          .numbered ⟨number, w.size, w.padding, settings.maxPageSize, none⟩ links) ∧
      links.next.isSome = (w.withNumber number).isFollowed records := by
  subst hw
  have hpage := result_paginate_of_countless
    (p := (pagerAt settings base entries number).uncounted) (m := m) rfl
    (entries_pagerAt settings base entries number) hsettings (read_entriesAt hread hnumber)
    (hasLinks_entriesAt.mpr hlinks) hrecords hcount rfl
  exact ⟨_, hpage, isSome_next_around ..⟩

/-- **A walk ends**, and from the page where it starts it comes past all records once. -/
theorem exists_walk (base : Option String) (hsettings : settings.IsTyped)
    (hread : PageFields.read (pageEntries entries) = .ok f) (hlinks : HasLinks entries)
    (hrecords : m.sorted = .ok records) (hcount : records.length ≤ 2 ^ 53)
    (hw : PageWindow.ofFields settings f = w) (hnumber : 1 ≤ number) :
    ∃ pages, Walk (askCountless settings base entries m) number pages ∧
      pages.flatten = records.drop (w.withNumber number).start.toNat := by
  -- by induction on how many records lie from the page on, which are fewer for the next page
  induction hleft : records.length - (w.withNumber number).start.toNat
    using Nat.strong_induction_on generalizing number with
  | _ left ih =>
    have hproper : (w.withNumber number).IsProper := PageWindow.IsProper.withNumber
      (hw ▸ PageWindow.isProper_ofFields hsettings (PageFields.bounds_of_read hread)) hnumber
    have hsplit := hproper.cut_append_drop records
    obtain ⟨links, hask, hnext⟩ :=
      askCountless_eq base hsettings hread hlinks hrecords hcount hw hnumber
    cases hfollowed : (w.withNumber number).isFollowed records with
    | false =>
      rw [hfollowed, Option.isSome_eq_false_iff, Option.isNone_iff_eq_none] at hnext
      rw [PageWindow.drop_of_not_isFollowed hfollowed, List.append_nil] at hsplit
      exact ⟨_, .stop hask hnext, by rw [List.flatten_singleton, hsplit]⟩
    | true =>
      rw [hfollowed] at hnext
      have hless := hproper.sub_start_next_lt hfollowed
      obtain ⟨pages, hwalk, hpages⟩ := ih _ (hleft ▸ hless) (show 1 ≤ number + 1 by omega) rfl
      exact ⟨_, .move hask hnext hwalk, by rw [List.flatten_cons, hpages, ← hsplit]; rfl⟩

end

/-! ## Both kinds of pages side by side -/

section

variable {p : Pager} {entries : List (Value × Value)} {f : PageFields} {w : PageWindow}
  {m : Memory} {records : List Value}

/-- A numbered page up to the last one holds the records of its window. -/
theorem result_paginate_of_le_lastPage (hkind : p.kind = .page)
    (hentries : p.entries = .ok entries) (hsettings : p.settings.IsTyped)
    (hread : PageFields.read (pageEntries entries) = .ok f) (hlinks : HasLinks entries)
    (hrecords : m.sorted = .ok records) (hcount : records.length ≤ 2 ^ 53)
    (hw : PageWindow.ofFields p.settings f = w) {last : Nat}
    (hlast : lastPage records.length (pageSize p.settings f) = last) (hle : w.number ≤ last) :
    ∃ page, (Collection.all page).result = .ok (w.cut records) ∧
      (p.paginate (Selection.live m)).result =
        .ok (page, .numbered ⟨w.number, w.size, w.padding, p.settings.maxPageSize,
            some ⟨records.length, last⟩⟩
          (.around (linkText p.base entries) w.number (some last) (w.number < last))) := by
  obtain ⟨matching, hmatching, hperm⟩ := perm_of_sorted hrecords
  have hlength := hperm.length_eq
  refine ⟨.live { m with offset := .int w.start, limit := w.size.toValue }, ?_, ?_⟩
  · have hrows := rows_of_pageWindow (m := m) hsettings (PageFields.bounds_of_read hread)
    rw [hw, hrecords] at hrows
    exact hrows
  · rw [result_paginate_of_page hkind hentries, result_beginPage hsettings hread hmatching
      (by omega) hw (by rw [← hlength, hlast]) hle hlinks, ← hlength]
    rfl

/-- A numbered page up to the last one is refused if its links cannot be written. -/
theorem result_paginate_of_le_lastPage_of_looseInLinks? (hkind : p.kind = .page)
    (hentries : p.entries = .ok entries) (hsettings : p.settings.IsTyped)
    (hread : PageFields.read (pageEntries entries) = .ok f) {text : LooseText}
    (hlinks : looseInLinks? entries = some text) (hrecords : m.sorted = .ok records)
    (hcount : records.length ≤ 2 ^ 53) (hw : PageWindow.ofFields p.settings f = w) {last : Nat}
    (hlast : lastPage records.length (pageSize p.settings f) = last) (hle : w.number ≤ last) :
    (p.paginate (Selection.live m)).result = .error (.unencodable text) := by
  obtain ⟨matching, hmatching, hperm⟩ := perm_of_sorted hrecords
  have hlength := hperm.length_eq
  rw [result_paginate_of_page hkind hentries, result_beginPage_of_looseInLinks? hsettings hread
    hmatching (by omega) hw (by rw [← hlength, hlast]) hle hlinks]
  rfl

/-- A numbered page past the last one is refused. -/
theorem result_paginate_of_lastPage_lt (hkind : p.kind = .page)
    (hentries : p.entries = .ok entries) (hsettings : p.settings.IsTyped)
    (hread : PageFields.read (pageEntries entries) = .ok f) (hrecords : m.sorted = .ok records)
    (hcount : records.length ≤ 2 ^ 53) (hw : PageWindow.ofFields p.settings f = w) {last : Nat}
    (hlast : lastPage records.length (pageSize p.settings f) = last) (hlt : last < w.number) :
    (p.paginate (Selection.live m)).result =
      .error (.pageOutOfRange (.int w.number) (.int last)) := by
  obtain ⟨matching, hmatching, hperm⟩ := perm_of_sorted hrecords
  have hlength := hperm.length_eq
  rw [result_paginate_of_page hkind hentries, result_beginPage_of_lt hsettings hread hmatching
    (by omega) hw (by rw [← hlength, hlast]) hlt]
  rfl

end

/-- **Pages without a count refine numbered pages.** Where a request has links, as one of characters
only has, a page without a count succeeds, with the records of the numbered page and its report,
less the count and the last link; where the numbered page is past the last one it is empty and the
end. It has a next link exactly if the page after it is not empty, and then, or if no records are
left out, the next link of the numbered page is the same. Moving on from page one while there is a
next link comes to an end in one way, past all records after the padding, each once and in their
order. -/
theorem countless_refines_numbered {p : Pager} {entries : List (Value × Value)} {f : PageFields}
    {m : Memory} {records : List Value} (hkind : p.kind = .page)
    (hentries : p.entries = .ok entries) (hsettings : p.settings.IsTyped)
    (hread : PageFields.read (pageEntries entries) = .ok f) (hlinks : HasLinks entries)
    (hrecords : m.unwindowed.rows = .ok records) (hcount : records.length ≤ 2 ^ 53) :
    (∃ rows info links,
      (p.uncounted.paginate (Selection.live m)).result = .ok (.ofRows rows, .numbered info links) ∧
      info.number = f.number.getD 1 ∧ info.padding = f.padding ∧ info.counts = none ∧
      ((∃ page info' links',
          (p.paginate (Selection.live m)).result = .ok (page, .numbered info' links') ∧
          (Collection.all page).result = .ok rows ∧
          { info' with counts := none } = info ∧
          { links' with last := none, next := links.next } = links ∧
          (links.next.isSome = true → links'.next = links.next) ∧
          (f.padding = 0 → links'.next = links.next)) ∨
        (∃ number last,
          (p.paginate (Selection.live m)).result = .error (.pageOutOfRange number last) ∧
          rows = [] ∧ links.next = none)) ∧
      (links.next.isSome = true ↔
        ∃ rows' info' links',
          askCountless p.settings p.base entries m (info.number + 1) =
            .ok (.ofRows rows', .numbered info' links') ∧
          info'.size = info.size ∧ info'.padding = info.padding ∧ rows' ≠ [])) ∧
    ∃ pages, Walk (askCountless p.settings p.base entries m) 1 pages ∧
      (∀ pages', Walk (askCountless p.settings p.base entries m) 1 pages' → pages' = pages) ∧
      pages.flatten = records.drop f.padding.toNat := by
  rw [Memory.rows_unwindowed] at hrecords
  obtain ⟨w, hw⟩ : ∃ w, PageWindow.ofFields p.settings f = w := ⟨_, rfl⟩
  have hproper : w.IsProper :=
    hw ▸ PageWindow.isProper_ofFields hsettings (PageFields.bounds_of_read hread)
  have hnumber : w.number = f.number.getD 1 := hw ▸ rfl
  have hpadding : w.padding = f.padding := hw ▸ rfl
  have hsize : pageSize p.settings f = w.size.truncate.toNat := hw ▸ rfl
  refine ⟨?_, ?_⟩
  · have hcountless := result_paginate_of_countless (p := p.uncounted) rfl hentries hsettings hread
      hlinks hrecords hcount hw
    refine ⟨_, _, _, hcountless, hnumber, hpadding, rfl, ?_, ?_⟩
    · rcases Int.lt_or_le (lastPage records.length w.size.truncate.toNat) w.number with hlt | hle
      · obtain ⟨hcut, hend⟩ := hproper.cut_of_lastPage_lt hlt
        refine .inr ⟨_, _, result_paginate_of_lastPage_lt hkind hentries hsettings hread hrecords
          hcount hw (by rw [hsize]) hlt, hcut, ?_⟩
        rw [hend]
        rfl
      · obtain ⟨page, hrows, hpage⟩ := result_paginate_of_le_lastPage hkind hentries hsettings
          hread hlinks hrecords hcount hw (by rw [hsize]) hle
        refine .inl ⟨page, _, _, hpage, hrows, rfl, rfl, fun hnext => ?_, fun hnone => ?_⟩
        · rw [isSome_next_around] at hnext
          have hlt := hproper.lt_lastPage_of_isFollowed hnext
          rw [hnext, decide_eq_true hlt]
          rfl
        · rw [hproper.isFollowed_eq_decide (hpadding.trans hnone)]
          rfl
    · rw [isSome_next_around, hproper.isFollowed_iff]
      obtain ⟨links, hask, -⟩ := askCountless_eq p.base hsettings hread hlinks hrecords hcount hw
        (Int.le_add_one hproper.one_le_number)
      constructor
      · intro hnonempty
        exact ⟨_, _, _, hask, rfl, rfl, hnonempty⟩
      · rintro ⟨rows', info', links', hask', -, -, hnonempty⟩
        cases hask.symm.trans hask'
        exact hnonempty
  · obtain ⟨pages, hwalk, hpages⟩ :=
      exists_walk p.base hsettings hread hlinks hrecords hcount rfl (Int.le_refl 1)
    refine ⟨pages, hwalk, fun pages' hwalk' => hwalk.unique hwalk', ?_⟩
    rw [hpages, PageWindow.start, PageWindow.withNumber, Int.sub_self, Int.mul_zero, Int.zero_add]
    rfl

/-- Three records in pages of two, the first record skipped and a window set before: a walk comes
past the other two. -/
theorem countless_refines_numbered_three_records :
    Settings.default.IsTyped ∧
      PageFields.read
          (pageEntries [(.str "page", .map [(.str "size", .int 2), (.str "offset", .int 1)])]) =
        .ok ⟨none, some 2, some 1, none⟩ ∧
      Memory.rows (Memory.unwindowed {
          items := [.record [("n", .int 3)], .record [("n", .int 1)], .record [("n", .int 2)]]
          ordering := [(.str "n", .asc)]
          limit := .int 1 }) =
        .ok [.record [("n", .int 1)], .record [("n", .int 2)], .record [("n", .int 3)]] ∧
      ∃ pages,
        Walk (askCountless Settings.default none
          [(.str "page", .map [(.str "size", .int 2), (.str "offset", .int 1)])] {
            items := [.record [("n", .int 3)], .record [("n", .int 1)], .record [("n", .int 2)]]
            ordering := [(.str "n", .asc)]
            limit := .int 1 }) 1 pages ∧
        pages.flatten = [.record [("n", .int 2)], .record [("n", .int 3)]] := by
  have hsettings : Settings.default.IsTyped := ⟨rfl, rfl, rfl⟩
  have hread : PageFields.read
      (pageEntries [(.str "page", .map [(.str "size", .int 2), (.str "offset", .int 1)])]) =
      .ok ⟨none, some 2, some 1, none⟩ := by rfl
  have hrows : Memory.rows (Memory.unwindowed {
        items := [.record [("n", .int 3)], .record [("n", .int 1)], .record [("n", .int 2)]]
        ordering := [(.str "n", .asc)]
        limit := .int 1 }) =
      .ok [.record [("n", .int 1)], .record [("n", .int 2)], .record [("n", .int 3)]] := by
    have hsortable : ∀ clause ∈ [(Value.str "n", Direction.asc)], Sortable clause
        [.record [("n", .int 3)], .record [("n", .int 1)], .record [("n", .int 2)]] := by
      intro clause hclause
      obtain rfl := List.mem_singleton.mp hclause
      exact ⟨fun item _ => ⟨_, rfl⟩, by decide +kernel⟩
    have hplaces : ([1, 2, 0] : List (Fin 3)).Perm (List.finRange 3) := by decide
    rw [Memory.rows_unwindowed]
    exact foldrM_sortByClause_of_places hsortable rfl hplaces (by decide +kernel)
  obtain ⟨-, pages, hwalk, -, hpages⟩ :=
    countless_refines_numbered
      (p := ⟨.page, .map [(.str "page", .map [(.str "size", .int 2), (.str "offset", .int 1)])],
        Settings.default, none⟩)
      rfl rfl hsettings hread (hasLinks_of_areEncodable rfl) hrows (by decide)
  exact ⟨hsettings, hread, hrows, pages, hwalk, hpages⟩

end ResourceQuery.Pagination
