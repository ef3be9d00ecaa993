import ResourceQuery.Proofs.Pagination.Countless

/-!
# Flat pages beside counted ones

A flat page reports the same window as a counted one, with a page count and neighbours of its own.
They come from other formulas: no page is counted where there are no records, the padding is
reported as it was asked for, and a page after the last one is given instead of being refused.

Headlines:
* **`Pager.flattened`**: the pager of a request that reports flat pages.
* **`FlatInfo.Mirrors`**: a flat report that says the same as a counted one.
* **`result_paginate_of_flat`**: the page and the report of a flat pager.
* **`flat_agrees_with_counted`**: both pagers on the same request.
-/

namespace ResourceQuery.Pagination

/-- The same pager, but one that reports flat pages. -/
def Pager.flattened (p : Pager) : Pager := { p with kind := .flat }

/-- A flat report that says the same as that of a counted page. Only where there are no records
are the pages counted in another way. -/
structure FlatInfo.Mirrors (flat : FlatInfo) (info : PageInfo) (links : PageLinks) : Prop where
  number : flat.number = info.number
  size : flat.size = info.size
  counts : ∃ pages, info.counts = some ⟨flat.counts.records, pages⟩ ∧
    (flat.counts.records ≠ 0 → flat.counts.pages = pages) ∧
    (flat.counts.records = 0 → flat.counts.pages = 0 ∧ pages = 1)
  padding : flat.offset.getD 0 = info.padding
  next : flat.next = links.next.map fun _ => info.number + 1
  previous : flat.previous = links.previous.map fun _ => info.number - 1

/-- The report of a flat page of a number of records. -/
def flatInfo (settings : Settings) (f : PageFields) (records : Nat) : FlatInfo :=
  let w := PageWindow.ofFields settings f
  let pages : Int := windowCount records (pageSize settings f)
  { number := w.number
    size := w.size
    offset := f.skipped?
    counts := ⟨records, pages⟩
    next := if w.number < pages then some (w.number + 1) else none
    previous := if w.number > 1 then some (w.number - 1) else none }

/-- The page that a flat report is about. -/
def flatPage (settings : Settings) (f : PageFields) (m : Memory) : Memory :=
  let w := PageWindow.ofFields settings f
  { m with offset := .int w.start, limit := w.size.toValue }

/-- There are no pages of no records. -/
theorem windowCount_zero {size : Nat} (hsize : 0 < size) : windowCount 0 size = 0 :=
  Nat.div_eq_of_lt (by omega)

/-- Records fill at least one page. -/
theorem windowCount_pos {records size : Nat} (hsize : 0 < size) (hrecords : 0 < records) :
    0 < windowCount records size :=
  (lt_windowCount_iff hsize records 0).mpr (by omega)

section

variable {p : Pager} {entries : List (Value × Value)} {f : PageFields} {m : Memory}
  {matching : List Value}

/-- The page count of a flat report. -/
theorem pages?_eq_windowCount {settings : Settings} (hsettings : settings.IsTyped)
    (hf : f.InBounds) (hsize : (PageWindow.ofFields settings f).size.truncate ≤ 2 ^ 53)
    {records : Nat} (hrecords : records ≤ 2 ^ 53) :
    (PageWindow.ofFields settings f).size.pages? records =
      some (windowCount records (pageSize settings f) : Int) := by
  have hone := PageWindow.one_le_size hsettings hf
  rw [Quantity.pages?_of_isInteger (PageWindow.isInteger_size hsettings)]
  exact Number.ceilQuotient_eq (by omega) hrecords (by omega)

/-- **What a flat page comes to**, whatever kind of collection counts its records: the window of the
page and its report. -/
theorem result_paginate_of_flat_of_count {C : Type} [Collection C] {collection : Selection C}
    {records : Nat} (hkind : p.kind = .flat) (hentries : p.entries = .ok entries)
    (hsettings : p.settings.IsTyped) (hread : PageFields.read (pageEntries entries) = .ok f)
    (hcount : (Collection.count collection).result = .ok records) (hrecords : records ≤ 2 ^ 53)
    (hsize : (PageWindow.ofFields p.settings f).size.truncate ≤ 2 ^ 53) :
    (p.paginate collection).result =
      (window (.whole (PageWindow.ofFields p.settings f).start)
        (PageWindow.ofFields p.settings f).size collection).result.map fun page =>
          (page, .flat (flatInfo p.settings f records)) := by
  have hpages := pages?_eq_windowCount hsettings (PageFields.bounds_of_read hread) hsize hrecords
  have hoffset := PageWindow.offset?_of_integer (PageWindow.isInteger_size (f := f) hsettings)
  have hbegin : (p.beginFlat entries collection).result =
      (window (.whole (PageWindow.ofFields p.settings f).start)
        (PageWindow.ofFields p.settings f).size collection).result.map fun page =>
          (.flat (flatInfo p.settings f records), page) := by
    unfold Pager.beginFlat
    rw [Traced.result_bind_of_ok (a := f) hread, Traced.result_bind_of_ok hcount,
      Traced.result_bind_of_ok (a := (windowCount _ _ : Int)) (by rw [hpages]; rfl),
      Traced.result_bind_of_ok (a := .whole _) (by rw [hoffset]; rfl), Traced.result_bind]
    rfl
  unfold Pager.paginate Pager.begin
  rw [hkind, hentries]
  simp only [Traced.result_bind, Traced.result_ofExcept]
  simp only [bind, Except.bind, hbegin]
  cases (window (.whole (PageWindow.ofFields p.settings f).start)
    (PageWindow.ofFields p.settings f).size collection).result <;> rfl

/-- **What a flat pager gives** for records in memory, whatever the number of the page. -/
theorem result_paginate_of_flat (hkind : p.kind = .flat) (hentries : p.entries = .ok entries)
    (hsettings : p.settings.IsTyped) (hlargest : p.settings.maxPageSize.truncate ≤ 2 ^ 53)
    (hread : PageFields.read (pageEntries entries) = .ok f) (hmatching : m.matching = .ok matching)
    (hcount : matching.length ≤ 2 ^ 53) :
    (p.paginate (Selection.live m)).result =
      .ok (.live (flatPage p.settings f m), .flat (flatInfo p.settings f matching.length)) := by
  rw [result_paginate_of_flat_of_count hkind hentries hsettings hread
    (Selection.result_count_live hmatching) hcount
    ((PageWindow.size_le_largest hsettings).trans hlargest)]
  rfl

/-- A page comes before the last one by its number exactly if it does by the count of windows: the
page that stands for no records is the first one. -/
theorem number_lt_lastPage_iff (settings : Settings) (hf : f.InBounds) (records : Nat) :
    (PageWindow.ofFields settings f).number < lastPage records (pageSize settings f) ↔
      (PageWindow.ofFields settings f).number < windowCount records (pageSize settings f) := by
  have hnumber : 1 ≤ (PageWindow.ofFields settings f).number := hf.one_le_number
  unfold lastPage
  omega

/-- **The report of a flat page** says what that of the counted page says. -/
theorem flatInfo_mirrors (hsettings : p.settings.IsTyped) (hf : f.InBounds) (records : Nat) :
    (flatInfo p.settings f records).Mirrors
      (pageInfo p f ⟨records, lastPage records (pageSize p.settings f)⟩)
      (pageLinks p entries f (lastPage records (pageSize p.settings f))) := by
  have hone := PageWindow.one_le_size hsettings hf
  have hsize : 0 < pageSize p.settings f := by
    unfold pageSize
    omega
  have hnext := number_lt_lastPage_iff p.settings hf records
  refine ⟨rfl, rfl, ⟨_, rfl, fun hrecords => ?_, fun hrecords => ?_⟩, rfl, ?_, ?_⟩
  · have hpos := windowCount_pos hsize (Nat.pos_of_ne_zero fun h => hrecords (congrArg _ h))
    show (windowCount _ _ : Int) = lastPage _ _
    unfold lastPage
    omega
  · obtain rfl : records = 0 := Int.ofNat_eq_zero.mp hrecords
    have hzero := windowCount_zero hsize
    refine ⟨congrArg Nat.cast hzero, ?_⟩
    rw [lastPage, hzero]
    rfl
  · show (if _ then _ else _) = Option.map _ (if _ then _ else _)
    simp only [decide_eq_true_eq, hnext]
    split
    · rfl
    · rfl
  · show (if _ then _ else _) = Option.map _ (if _ then _ else _)
    split
    · rfl
    · rfl

/-- The window of a flat page past the last counted one is empty. -/
theorem rows_flatPage_of_lastPage_lt (hsettings : p.settings.IsTyped) (hf : f.InBounds)
    (hmatching : m.matching = .ok matching)
    (hlt : lastPage matching.length (pageSize p.settings f) <
      (PageWindow.ofFields p.settings f).number) :
    (flatPage p.settings f m).rows = m.sorted.map fun _ => [] := by
  refine (rows_of_pageWindow hsettings hf).trans ?_
  cases hrecords : m.sorted with
  | error e => rfl
  | ok records =>
    obtain ⟨matching', hmatching', hperm⟩ := perm_of_sorted hrecords
    cases hmatching.symm.trans hmatching'
    have hproper := PageWindow.isProper_ofFields hsettings hf
    have hcut : (PageWindow.ofFields p.settings f).cut records = [] :=
      (hproper.cut_of_lastPage_lt (by rw [hperm.length_eq]; exact hlt)).1
    exact congrArg Except.ok hcut

/-- **Flat pages agree with counted ones.** A flat pager never refuses a page. Where the counted
pager gives a page, the flat one gives the same collection with a report that says the same;
where it refuses a page for its number, the flat one gives an empty page with none after it. There
is no other case if the links of the request can be written, which a flat pager does not ask for. -/
theorem flat_agrees_with_counted (hkind : p.kind = .page) (hentries : p.entries = .ok entries)
    (hsettings : p.settings.IsTyped) (hlargest : p.settings.maxPageSize.truncate ≤ 2 ^ 53)
    (hread : PageFields.read (pageEntries entries) = .ok f) (hmatching : m.matching = .ok matching)
    (hcount : matching.length ≤ 2 ^ 53) :
    ∃ page flat,
      (p.flattened.paginate (Selection.live m)).result = .ok (.live page, .flat flat) ∧
      flat.counts.records = matching.length ∧
      ((∃ info links,
          (p.paginate (Selection.live m)).result = .ok (.live page, .numbered info links) ∧
            flat.Mirrors info links) ∨
        (∃ number last,
          (p.paginate (Selection.live m)).result = .error (.pageOutOfRange number last) ∧
            page.rows = m.sorted.map (fun _ => []) ∧ flat.next = none) ∨
        ∃ text, looseInLinks? entries = some text ∧
          (p.paginate (Selection.live m)).result = .error (.unencodable text)) := by
  have hf := PageFields.bounds_of_read hread
  have hflat := result_paginate_of_flat (p := p.flattened) rfl hentries hsettings hlargest hread
    hmatching hcount
  refine ⟨_, _, hflat, rfl, ?_⟩
  by_cases hle : (PageWindow.ofFields p.settings f).number ≤
      lastPage matching.length (pageSize p.settings f)
  · cases hlinks : looseInLinks? entries with
    | none =>
      refine .inl ⟨_, pageLinks p entries f _, ?_, flatInfo_mirrors hsettings hf matching.length⟩
      rw [result_paginate_of_page hkind hentries,
        result_beginPage hsettings hread hmatching hcount rfl rfl hle hlinks]
      rfl
    | some text =>
      refine .inr (.inr ⟨text, rfl, ?_⟩)
      rw [result_paginate_of_page hkind hentries,
        result_beginPage_of_looseInLinks? hsettings hread hmatching hcount rfl rfl hle hlinks]
      rfl
  · have hlt := Int.not_le.mp hle
    have hrefused : (p.paginate (Selection.live m)).result = .error (.pageOutOfRange
        (.int (PageWindow.ofFields p.settings f).number)
        (.int (lastPage matching.length (pageSize p.settings f)))) := by
      rw [result_paginate_of_page hkind hentries,
        result_beginPage_of_lt hsettings hread hmatching hcount rfl rfl hlt]
      rfl
    have hempty := rows_flatPage_of_lastPage_lt hsettings hf hmatching hlt
    refine .inr (.inl ⟨_, _, hrefused, hempty, ?_⟩)
    have hnext := number_lt_lastPage_iff p.settings hf matching.length
    exact if_neg fun h => absurd (hnext.mpr h) (Int.not_lt.mpr hlt.le)

end

/-- A request for the second page of three records, in pages of one. -/
def secondOfThree : List (Value × Value) :=
  [(.str "page", .map [(.str "number", .int 2), (.str "size", .int 1)])]

/-- The counted pager of that request. -/
def secondPager : Pager := ⟨.page, .map secondOfThree, Settings.default, none⟩

/-- The second page of three records in pages of one: both pagers give the second record, and the
flat report counts the same pages and has the same neighbours. -/
theorem flat_agrees_with_counted_three_records :
    Settings.default.IsTyped ∧ Settings.default.maxPageSize.truncate ≤ 2 ^ 53 ∧
      PageFields.read (pageEntries secondOfThree) = .ok ⟨some 2, some 1, none, none⟩ ∧
      Memory.matching { items := [.int 1, .int 2, .int 3] } = .ok [.int 1, .int 2, .int 3] ∧
      ∃ page flat info links,
        (secondPager.flattened.paginate
            (Selection.live ({ items := [.int 1, .int 2, .int 3] } : Memory))).result =
          .ok (.live page, .flat flat) ∧
        (secondPager.paginate
            (Selection.live ({ items := [.int 1, .int 2, .int 3] } : Memory))).result =
          .ok (.live page, .numbered info links) ∧
        page.rows = .ok [.int 2] ∧
        (flat.number = 2 ∧ info.number = 2) ∧
        (flat.size = .whole 1 ∧ info.size = .whole 1) ∧
        (flat.counts = ⟨3, 3⟩ ∧ info.counts = some ⟨3, 3⟩) ∧
        (flat.offset.getD 0 = 0 ∧ info.padding = 0) ∧
        (flat.next = some 3 ∧ links.next = some "?page[number]=3&page[size]=1") ∧
        (flat.previous = some 1 ∧ links.previous = some "?page[number]=1&page[size]=1") := by
  have hsettings : Settings.default.IsTyped := ⟨rfl, rfl, rfl⟩
  have hlargest : Settings.default.maxPageSize.truncate ≤ 2 ^ 53 := by decide
  have hread : PageFields.read (pageEntries secondOfThree) =
      .ok ⟨some 2, some 1, none, none⟩ := by rfl
  have hmatching : Memory.matching { items := [.int 1, .int 2, .int 3] } =
      .ok [.int 1, .int 2, .int 3] := by rfl
  have hcounted : (secondPager.paginate
      (Selection.live ({ items := [.int 1, .int 2, .int 3] } : Memory))).result =
      .ok (.live { items := [.int 1, .int 2, .int 3], offset := .int 1, limit := .int 1 },
        .numbered ⟨2, .whole 1, 0, .whole 100, some ⟨3, 3⟩⟩
          { self := "?page[number]=2&page[size]=1"
            first := "?page[number]=1&page[size]=1"
            last := some "?page[number]=3&page[size]=1"
            previous := some "?page[number]=1&page[size]=1"
            next := some "?page[number]=3&page[size]=1" }) := by
    with_unfolding_all rfl
  obtain ⟨page, flat, hflat, hrecords, hpage⟩ :=
    flat_agrees_with_counted (p := secondPager) rfl rfl hsettings hlargest hread hmatching
      (by decide)
  refine ⟨hsettings, hlargest, hread, hmatching, page, flat, ?_⟩
  rcases hpage with ⟨info, links, hnumbered, hmirrors⟩ | ⟨number, last, hrefused, -⟩ |
    ⟨text, hloose, -⟩
  · cases hcounted.symm.trans hnumbered
    obtain ⟨pages, hcounts, hpages, -⟩ := hmirrors.counts
    have hflatCounts : flat.counts = ⟨3, 3⟩ := by
      have hthree : flat.counts.pages = 3 :=
        (hpages (by rw [hrecords]; decide)).trans
          (congrArg PageCounts.pages (Option.some.inj hcounts)).symm
      show (⟨flat.counts.records, flat.counts.pages⟩ : PageCounts) = _
      rw [hrecords, hthree]
      rfl
    refine ⟨_, _, hflat, hnumbered, ?_, ⟨hmirrors.number, rfl⟩, ⟨hmirrors.size, rfl⟩,
      ⟨hflatCounts, rfl⟩, ⟨hmirrors.padding, rfl⟩, ⟨hmirrors.next, rfl⟩, hmirrors.previous, rfl⟩
    rfl
  · cases hcounted.symm.trans hrefused
  · have hencodable : looseInLinks? secondOfThree = none := by decide +kernel
    cases hencodable.symm.trans hloose

end ResourceQuery.Pagination
