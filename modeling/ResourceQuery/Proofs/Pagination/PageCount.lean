import Mathlib.Data.Rat.Floor
import ResourceQuery.Collection.Recorder
import ResourceQuery.Proofs.Pagination.Flat

/-!
# The number of pages

A page count is the double nearest to a quotient, rounded up. For up to `2 ^ 53` records it is the
exact one, so that rounding never refuses a page that holds records and never lets one through that
holds none.

Headlines:
* **`exactPages`**: the quotient of records and size, rounded up without any other rounding.
* **`le_exactPages_iff`**: a page is among those counted exactly if there are records at its start.
* **`paginate_counts_exactly`**: what a counted and a flat pager give.
-/

namespace ResourceQuery.Pagination

/-- The exact number of pages of a size that so many records fill. -/
def exactPages (records : Nat) (size : Int) : Int := ⌈(records : ℚ) / size⌉

/-- **The pages that are counted** are those that records are left for by the pages before. -/
theorem le_exactPages_iff {size : Int} (hsize : 0 < size) (records : Nat) (number : Int) :
    number ≤ exactPages records size ↔ size * (number - 1) < records := by
  have hsize' : (0 : ℚ) < size := Int.cast_pos.mpr hsize
  rw [exactPages, Int.le_ceil_iff, lt_div_iff₀ hsize', mul_comm]
  exact_mod_cast Iff.rfl

/-- The windows that so many records fill are these pages. -/
theorem windowCount_eq_exactPages {size : Nat} (hsize : 0 < size) (records : Nat) :
    (windowCount records size : Int) = exactPages records size := by
  refine eq_of_forall_le_iff fun number => ?_
  rw [le_exactPages_iff (by omega)]
  rcases Int.lt_or_le number 1 with hlt | hle
  · have hneg : (size : Int) * (number - 1) < 0 :=
      Int.mul_neg_of_pos_of_neg (by omega) (by omega)
    omega
  · obtain ⟨i, rfl⟩ : ∃ i : Nat, number = i + 1 := ⟨(number - 1).toNat, by omega⟩
    have hcount := lt_windowCount_iff hsize records i
    rw [add_sub_cancel_right]
    constructor
    · intro h
      exact_mod_cast hcount.mp (by omega)
    · intro h
      have := hcount.mpr (by exact_mod_cast h)
      omega

theorem lastPage_eq_exactPages {size : Nat} (hsize : 0 < size) (records : Nat) :
    (lastPage records size : Int) = max 1 (exactPages records size) := by
  rw [← windowCount_eq_exactPages hsize, lastPage]
  omega

variable {C : Type} [Collection C] {p : Pager} {entries : List (Value × Value)} {f : PageFields}
  {w : PageWindow} {collection : Selection C} {records : Nat}

/-- **Page counts are exact** up to `2 ^ 53` records. A counted pager refuses a page after the last
one by the exact count, which is one where there are no records, and reports this count with any
other; a flat pager reports the exact count as it is, for sizes up to `2 ^ 53`. -/
theorem paginate_counts_exactly (hentries : p.entries = .ok entries)
    (hsettings : p.settings.IsTyped) (hread : PageFields.read (pageEntries entries) = .ok f)
    (hw : PageWindow.ofFields p.settings f = w)
    (hcount : (Collection.count collection).result = .ok records) (hrecords : records ≤ 2 ^ 53) :
    1 ≤ w.size.truncate ∧
    (∀ number, number ≤ exactPages records w.size.truncate ↔
      w.size.truncate * (number - 1) < records) ∧
    (p.kind = .page → (p.paginate collection).result =
      if max 1 (exactPages records w.size.truncate) < w.number then
        .error (.pageOutOfRange (.int w.number)
          (.int (max 1 (exactPages records w.size.truncate))))
      else do
        let page ← (window (.whole w.start) w.size collection).result
        let links ← linksOf (linkTo p.base entries) w.number
          (some (max 1 (exactPages records w.size.truncate)))
          (w.number < max 1 (exactPages records w.size.truncate))
        return (page, .numbered
          (pageInfo p f ⟨records, max 1 (exactPages records w.size.truncate)⟩) links)) ∧
    (p.kind = .flat → w.size.truncate ≤ 2 ^ 53 → (p.paginate collection).result =
      (window (.whole w.start) w.size collection).result.map fun page =>
        (page, .flat {
          number := w.number
          size := w.size
          offset := f.skipped?
          counts := ⟨records, exactPages records w.size.truncate⟩
          next := if w.number < exactPages records w.size.truncate then some (w.number + 1)
            else none
          previous := if w.number > 1 then some (w.number - 1) else none })) := by
  subst hw
  have hone := PageWindow.one_le_size hsettings (PageFields.bounds_of_read hread)
  have hsize : (pageSize p.settings f : Int) = (PageWindow.ofFields p.settings f).size.truncate :=
    Int.toNat_of_nonneg (by omega)
  refine ⟨hone, le_exactPages_iff (by omega) records, fun hkind => ?_, fun hkind hlarge => ?_⟩
  · rw [result_paginate_of_page hkind hentries,
      result_beginPage_of_count hsettings hread hcount hrecords rfl rfl,
      lastPage_eq_exactPages (by omega), hsize]
    split
    · rfl
    · cases (window (.whole (PageWindow.ofFields p.settings f).start)
        (PageWindow.ofFields p.settings f).size collection).result with
      | error e => rfl
      | ok page =>
        generalize linksOf _ _ _ _ = links
        cases links <;> rfl
  · rw [result_paginate_of_flat_of_count hkind hentries hsettings hread hcount hrecords hlarge,
      flatInfo, windowCount_eq_exactPages (by omega), hsize]

/-- Settings that allow large pages. -/
def widePages : Settings :=
  { Settings.default with maxPageSize := .whole (2 ^ 53), default_le_max := by decide }

/-- A request for one of the pages of 94906265 records. -/
def widePager (kind : Paginator) (number : Int) : Pager :=
  ⟨kind, .map [(.str "page", .map [(.str "number", .int number), (.str "size", .int 94906265)])],
    widePages, none⟩

/-- A collection whose records fill 94906265 pages of as many records, and one more begins. -/
def wideRecords : Selection Recorder := .live ⟨94906265 * 94906265 + 1, []⟩

/-- The quotient is so close to 94906265 that few doubles are between them. The page of the one
record is counted and given, and none after it. -/
theorem paginate_counts_wideRecords :
    (∃ info links,
      ((widePager .page 94906266).paginate wideRecords).result =
        .ok (wideRecords, .numbered info links) ∧
      info.counts = some ⟨94906265 * 94906265 + 1, 94906266⟩) ∧
    ((widePager .page 94906267).paginate wideRecords).result =
      .error (.pageOutOfRange (.int 94906267) (.int 94906266)) ∧
    ∃ info,
      ((widePager .flat 94906267).paginate wideRecords).result =
        .ok (wideRecords, .flat info) ∧
      info.counts = ⟨94906265 * 94906265 + 1, 94906266⟩ := by
  have hsettings : widePages.IsTyped := ⟨rfl, rfl, rfl⟩
  have hexact : exactPages (94906265 * 94906265 + 1) 94906265 = 94906266 := by
    rw [exactPages, Int.ceil_eq_iff]
    norm_num
  have hcount : (Collection.count wideRecords).result =
      .ok ((94906265 * 94906265 + 1 : Nat) : Int) := rfl
  have hpages (kind : Paginator) (number : Int) {f : PageFields}
      (hread : PageFields.read
        [(.str "number", .int number), (.str "size", .int 94906265)] = .ok f)
      (hw : PageWindow.ofFields widePages f = ⟨number, .whole 94906265, 0⟩) :=
    paginate_counts_exactly (p := widePager kind number) rfl hsettings hread hw hcount (by norm_num)
  obtain ⟨-, -, hlast, -⟩ := hpages .page 94906266
    (f := ⟨some 94906266, some 94906265, none, none⟩) (by rfl) (by rfl)
  obtain ⟨-, -, hbeyond, -⟩ := hpages .page 94906267
    (f := ⟨some 94906267, some 94906265, none, none⟩) (by rfl) (by rfl)
  obtain ⟨-, -, -, hflat⟩ := hpages .flat 94906267
    (f := ⟨some 94906267, some 94906265, none, none⟩) (by rfl) (by rfl)
  replace hlast := hlast rfl
  replace hbeyond := hbeyond rfl
  replace hflat := hflat rfl (by decide)
  simp only [Quantity.truncate, hexact] at hlast hbeyond hflat
  rw [if_neg (by decide), linksOf_of_hasLinks (hasLinks_of_areEncodable rfl)] at hlast
  rw [if_pos (by decide)] at hbeyond
  exact ⟨⟨_, _, hlast, rfl⟩, hbeyond, _, hflat, rfl⟩

end ResourceQuery.Pagination
