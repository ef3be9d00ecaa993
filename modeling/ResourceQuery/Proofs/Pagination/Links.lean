import ResourceQuery.Proofs.Number.DoubleRange
import ResourceQuery.Proofs.Pagination.FieldText
import ResourceQuery.Proofs.Pagination.Partition
import ResourceQuery.Proofs.Request.PairNames

/-!
# Following links

A link is the query string of the request with another page number. Whoever follows it reads the
fields of the page back as texts. These texts stand for the same fields, so the request that
arrives is for the same pages of the same collection, and the page writes the same link to itself.

Headlines:
* **`follow`**: the parameters that arrive when a link is followed.
* **`read_spelled`**: fields that are read back as texts stand for the same fields.
* **`flattenEntries_spelled`**: they are written as they were.
* **`isSome_offset?`**: where a page starts, for settings of any kind.
* **`PageLinks.targets`**: the links of a page with the numbers that they stand for.
* **`links_can_be_followed`**: every link of a page leads to the page that it stands for.
-/

namespace ResourceQuery.Pagination

open Number QueryString

/-! ## The request behind a link -/

/-- The fields of numbered pages. -/
def fieldNames : List String := ["number", "size", "offset", "outset"]

/-- The field that a key of the page map names. -/
def fieldName? : Value → Option String
  | .str name => if name ∈ fieldNames then some name else none
  | _ => none

/-- A page map whose fields are read back from pairs as texts. A field without a pair is not there,
and what is no field is kept. -/
def readBack (pairs : List (String × String)) (page : List (Value × Value)) :
    List (Value × Value) :=
  page.filterMap fun e =>
    match fieldName? e.1 with
    | some name => (pairs.lookup (nested "page" name)).map fun text => (e.1, .str text)
    | none => some e

/-- The parameters that arrive when a link with these parameters and pairs is followed. -/
def follow (pairs : List (String × String)) (linked : List (Value × Value)) :
    List (Value × Value) :=
  Value.put (.str "page") (.map (readBack pairs (pageEntries linked))) linked

theorem isPlainKey_of_mem_fieldNames {name : String} (h : name ∈ fieldNames) :
    isPlainKey name = true := by
  revert name
  decide

theorem fieldName?_eq_some_iff {key : Value} {name : String} :
    fieldName? key = some name ↔ key = .str name ∧ name ∈ fieldNames := by
  unfold fieldName?
  split
  · next s =>
    by_cases hs : s ∈ fieldNames
    · rw [if_pos hs]
      constructor
      · rintro ⟨⟩
        exact ⟨rfl, hs⟩
      · rintro ⟨⟨⟩, -⟩
        rfl
    · rw [if_neg hs]
      constructor
      · rintro ⟨⟩
      · rintro ⟨⟨⟩, hname⟩
        exact absurd hname hs
  · next hkey =>
    constructor
    · rintro ⟨⟩
    · rintro ⟨rfl, -⟩
      exact absurd rfl (hkey name)

/-! ## Fields as texts -/

/-- A page map whose fields are texts. Fields that are absent are left out. -/
def spelled (page : List (Value × Value)) : List (Value × Value) :=
  page.filterMap fun e =>
    if (fieldName? e.1).isSome then (textOf? e.2).map fun text => (e.1, .str text) else some e

section

variable {page : List (Value × Value)} (hdistinct : page.Pairwise fun a b => a.1 ≠ b.1)
include hdistinct

theorem lookup?_of_fieldName? {e : Value × Value} (he : e ∈ page) {name : String}
    (hname : fieldName? e.1 = some name) : Value.lookup? name page = some e.2 := by
  obtain ⟨k, v⟩ := e
  obtain ⟨rfl, hmem⟩ := fieldName?_eq_some_iff.mp hname
  exact lookup?_of_mem (isPlainKey_of_mem_fieldNames hmem) hdistinct he

/-- What is read back from the pairs of a page map. -/
theorem readBack_eq_spelled {pairs : List (String × String)}
    (hpairs : ∀ name ∈ fieldNames,
      pairs.lookup (nested "page" name) = (Value.lookup? name page).bind textOf?) :
    readBack pairs page = spelled page := by
  refine List.filterMap_congr fun e he => ?_
  cases hname : fieldName? e.1 with
  | none => rfl
  | some name =>
    have hmem := (fieldName?_eq_some_iff.mp hname).2
    simp only [hpairs name hmem, lookup?_of_fieldName? hdistinct he hname, Option.bind_some,
      Option.isSome_some, if_true]

/-- The texts of the fields. -/
theorem lookup?_spelled {name : String} (hname : name ∈ fieldNames) :
    Value.lookup? name (spelled page) =
      ((Value.lookup? name page).bind textOf?).map Value.str := by
  have hplain := isPlainKey_of_mem_fieldNames hname
  induction page with
  | nil => rfl
  | cons e rest ih =>
    obtain ⟨k, v⟩ := e
    have hrest := ih (List.pairwise_cons.mp hdistinct).2
    by_cases hk : k = .str name
    · subst hk
      have hfield : fieldName? (.str name) = some name := if_pos hname
      have hnone : Value.lookup? name rest = none := Value.lookup?_eq_none fun e he htext =>
        (List.pairwise_cons.mp hdistinct).1 e he ((text?_eq_some_iff hplain).mp htext).symm
      rw [hnone] at hrest
      cases htext : textOf? v with
      | none => simpa [spelled, hfield, htext, Value.lookup?, Value.text?] using hrest
      | some text => simp [spelled, hfield, htext, Value.lookup?, Value.text?]
    · have hskip (w : Value) (others : List (Value × Value)) :
          Value.lookup? name ((k, w) :: others) = Value.lookup? name others :=
        if_neg fun htext => hk ((text?_eq_some_iff hplain).mp htext)
      rw [hskip, ← hrest]
      unfold spelled
      rw [List.filterMap_cons]
      split
      · rfl
      · next w heq =>
        have hkey : w.1 = k := by
          split at heq
          · obtain ⟨text, -, rfl⟩ := Option.map_eq_some_iff.mp heq
            rfl
          · cases heq
            rfl
        obtain ⟨_, w⟩ := w
        cases hkey
        rw [hskip]

/-- **A field as a text** stands for the same. -/
theorem blankableField_spelled {bound : Int} {name : String} (hname : name ∈ fieldNames)
    (h : isFieldValue (fieldValue name page) = true) :
    blankableField bound (fieldValue name (spelled page)) =
      blankableField bound (fieldValue name page) := by
  unfold fieldValue at h ⊢
  rw [lookup?_spelled hdistinct hname]
  cases hv : Value.lookup? name page with
  | none => rfl
  | some v =>
    rw [hv] at h
    by_cases hnull : v = .null
    · rw [hnull]
      rfl
    · have htext : textOf? v = some v.plain := if_neg (by cases v <;> simp_all [Value.isNull])
      rw [Option.bind_some, htext]
      exact blankableField_plain h hnull

/-- **The fields as texts** are read as the fields. -/
theorem read_spelled (h : ∀ name ∈ fieldNames, isFieldValue (fieldValue name page) = true) :
    PageFields.read (spelled page) = PageFields.read page := by
  have hfield (bound : Int) (name : String) (hname : name ∈ fieldNames) :
      blankableField bound (fieldValue name (spelled page)) =
        blankableField bound (fieldValue name page) :=
    blankableField_spelled hdistinct hname (h name hname)
  unfold PageFields.read
  rw [hfield 1 "number" (by decide), hfield 1 "size" (by decide), hfield 0 "offset" (by decide),
    hfield 0 "outset" (by decide)]

/-- **Fields as texts** read as they did, for whoever skips what is absent and takes a field for its
text. -/
theorem flatMap_spelled {α : Type} {read : Value × Value → List α}
    (h : ∀ name ∈ fieldNames, isFieldValue (fieldValue name page) = true)
    (hread : ∀ key v, isFieldValue v = true →
      read (key, v) = ((textOf? v).map fun text => read (key, .str text)).getD []) :
    (spelled page).flatMap read = page.flatMap read := by
  have hfields : ∀ e ∈ page, (fieldName? e.1).isSome → isFieldValue e.2 = true := by
    intro e he hsome
    obtain ⟨name, hname⟩ := Option.isSome_iff_exists.mp hsome
    have hvalue := h name (fieldName?_eq_some_iff.mp hname).2
    rwa [fieldValue, lookup?_of_fieldName? hdistinct he hname] at hvalue
  clear h hdistinct
  unfold spelled
  induction page with
  | nil => rfl
  | cons e rest ih =>
    rw [List.forall_mem_cons] at hfields
    obtain ⟨k, v⟩ := e
    have hrest := ih hfields.2
    rw [List.filterMap_cons, List.flatMap_cons, ← hrest]
    by_cases hk : (fieldName? k).isSome = true
    · rw [if_pos hk, hread k v (hfields.1 hk)]
      cases textOf? v <;> rfl
    · rw [if_neg hk]
      rfl

end

/-- The entries are written one after the other. -/
theorem flattenEntries_eq_flatMap (parent : String) (entries : List (Value × Value)) :
    flattenEntries parent entries =
      entries.flatMap fun e => flattenValue (nestedName parent e.1) e.2 := by
  induction entries with
  | nil => rfl
  | cons e rest ih =>
    obtain ⟨key, v⟩ := e
    rw [flattenEntries, ih, List.flatMap_cons]

section

variable {page : List (Value × Value)} (hdistinct : page.Pairwise fun a b => a.1 ≠ b.1)
  (h : ∀ name ∈ fieldNames, isFieldValue (fieldValue name page) = true)
include hdistinct h

/-- **Fields as texts** are written as they were. -/
theorem flattenEntries_spelled (parent : String) :
    flattenEntries parent (spelled page) = flattenEntries parent page := by
  rw [flattenEntries_eq_flatMap, flattenEntries_eq_flatMap]
  refine flatMap_spelled hdistinct h fun key v hv => ?_
  have hsingle : isSingle v = true := by
    cases v <;> simp_all [isFieldValue, isSingle]
  rw [flattenValue_of_isSingle hsingle]
  cases textOf? v <;> rfl

/-- **Fields as texts** are in the way of links as they were. -/
theorem looseInEntries?_spelled (parent : List Nat) :
    looseInEntries? parent (spelled page) = looseInEntries? parent page := by
  rw [looseInEntries?_eq_head?, looseInEntries?_eq_head?]
  refine congrArg List.head? (flatMap_spelled hdistinct h fun key v hv => ?_)
  cases v with
  | null => rfl
  | str | int => rfl
  | _ => cases hv

end

/-- A value is written as another one in its place if both have the same pairs. -/
theorem flattenEntries_put {name : String} {v w : Value} {entries : List (Value × Value)}
    (hv : Value.lookup? name entries = some v)
    (h : ∀ parent, flattenValue parent w = flattenValue parent v) (parent : String) :
    flattenEntries parent (Value.put (.str name) w entries) = flattenEntries parent entries := by
  rw [flattenEntries_eq_flatMap, flattenEntries_eq_flatMap]
  exact Value.flatMap_put hv fun key => h _

/-- Of two values in one place only the pairs count. -/
theorem flatten_put_congr {name : String} {v w : Value}
    (h : ∀ parent, flattenValue parent w = flattenValue parent v)
    (entries : List (Value × Value)) :
    flatten (Value.put (.str name) w entries) = flatten (Value.put (.str name) v entries) := by
  rw [← Value.put_put name v w]
  exact flattenEntries_put (Value.lookup?_put_self name v entries) h ""

/-! ## Numbers of pages -/

/-- A number of pages is not above the greatest double, whatever the size of a page. -/
theorem pages_le_greatestDouble {q : Quantity} {records pages : Int}
    (h : q.pages? records = some pages) : pages ≤ greatestDouble := by
  cases q with
  | whole i => exact ceilQuotient_le_greatestDouble h
  | truth b => exact ceilQuotient_le_greatestDouble h
  | real x =>
    obtain ⟨n, -, h⟩ := Option.bind_eq_some_iff.mp h
    obtain ⟨quotient, hquotient, h⟩ := Option.bind_eq_some_iff.mp h
    exact ceil?_div?_le_greatestDouble hquotient h

/-- A page up to that number starts somewhere if any page of its size and padding does. -/
theorem isSome_offset? {w : PageWindow} (h : w.offset?.isSome = true) {number : Int}
    (hlow : 1 ≤ number) (hhigh : number ≤ greatestDouble) :
    (PageWindow.offset? { w with number }).isSome = true := by
  obtain ⟨before, size, padding⟩ := w
  cases size with
  | whole i => rfl
  | truth b => rfl
  | real x =>
    obtain ⟨start, hstart⟩ := Option.isSome_iff_exists.mp h
    obtain ⟨q, hq, hshift⟩ := Option.bind_eq_some_iff.mp hstart
    obtain ⟨t, -, rfl⟩ := Option.map_eq_some_iff.mp hq
    obtain ⟨more, hmore, -⟩ := Option.map_eq_some_iff.mp hshift
    obtain ⟨times, htimes⟩ := Option.isSome_iff_exists.mp
      (isSome_nearestInt? (i := number - 1) (by omega))
    have hscale : Quantity.scale? (.real x) (number - 1) = some (.real (x.mul times)) := by
      rw [Quantity.scale?, htimes]
      rfl
    rw [PageWindow.offset?, hscale]
    show (Quantity.shift? (.real (x.mul times)) padding).isSome = true
    rw [Quantity.shift?, hmore]
    rfl

/-! ## The links of a page -/

/-- The links of a page with the numbers that they stand for. -/
def PageLinks.targets (links : PageLinks) (number pages : Int) : List (Int × String) :=
  [(number, links.self), (1, links.first)] ++ (links.last.map (pages, ·)).toList ++
    (links.previous.map (number - 1, ·)).toList ++ (links.next.map (number + 1, ·)).toList

/-- Every link is that to a page from one to the last one. -/
theorem exists_of_mem_targets {link : Int → String} {number last : Int} (hlow : 1 ≤ number)
    (hhigh : number ≤ last) {target : Int × String}
    (h : target ∈ (PageLinks.around link number (some last) (number < last)).targets number last) :
    target.2 = link target.1 ∧ 1 ≤ target.1 ∧ target.1 ≤ last := by
  simp only [PageLinks.targets, PageLinks.around, List.cons_append, List.nil_append, List.append_assoc,
    List.mem_cons, List.mem_append, Option.mem_toList, Option.map_eq_some_iff] at h
  rcases h with rfl | rfl | ⟨_, hlast, rfl⟩ | ⟨_, hprevious, rfl⟩ | ⟨_, hnext, rfl⟩
  · exact ⟨rfl, hlow, hhigh⟩
  · exact ⟨rfl, Int.le_refl 1, by omega⟩
  · obtain ⟨_, hlast, rfl⟩ := hlast
    cases hlast
    exact ⟨rfl, by omega, Int.le_refl last⟩
  · split at hprevious
    · cases hprevious
      exact ⟨rfl, by omega, by omega⟩
    · cases hprevious
  · split at hnext
    · next hlt =>
      cases hnext
      exact ⟨rfl, by omega, by simpa [Int.add_one_le_iff] using hlt⟩
    · cases hnext

/-! ## Following a link -/

/-- Parameters whose pairs keep the fields of the page apart from all others: no key stands twice,
no other parameter is named like a field, and the fields are absent, texts, or integers that can be
written. -/
structure IsLinkable (entries : List (Value × Value)) : Prop where
  distinct : entries.Pairwise fun a b => a.1 ≠ b.1
  distinctPage : (pageEntries entries).Pairwise fun a b => a.1 ≠ b.1
  others : ∀ e ∈ entries, e.1 ≠ .str "page" →
    e.1.plain ≠ "" ∧ ¬ "page[".toList <+: e.1.plain.toList
  fields : ∀ name ∈ fieldNames, isFieldValue (fieldValue name (pageEntries entries)) = true

section

variable {entries : List (Value × Value)} {number : Int}

/-- The parameters of another page keep them apart too. -/
theorem IsLinkable.entriesAt (h : IsLinkable entries) (hnumber : isWritable number = true) :
    IsLinkable (entriesAt number entries) where
  distinct := Value.pairwise_put _ _ h.distinct
  distinctPage := by
    rw [pageEntries_entriesAt]
    exact Value.pairwise_put _ _ h.distinctPage
  others := by
    intro e he hne
    rcases Value.key_of_mem_put he with hkey | ⟨old, hold, hkey⟩
    · exact absurd hkey hne
    · rw [← hkey] at hne ⊢
      exact h.others old hold hne
  fields := by
    intro name hname
    rw [pageEntries_entriesAt, fieldValue]
    by_cases heq : name = "number"
    · rw [heq, Value.lookup?_put_self]
      exact hnumber
    · rw [Value.lookup?_put_of_ne heq]
      exact h.fields name hname

/-- The parameters that arrive when the link to the page of a number is followed. -/
def arriving (number : Int) (entries : List (Value × Value)) : List (Value × Value) :=
  follow (flatten (entriesAt number entries)) (entriesAt number entries)

theorem lookup?_page_entriesAt (number : Int) (entries : List (Value × Value)) :
    Value.lookup? "page" (entriesAt number entries) =
      some (.map (pageEntries (entriesAt number entries))) := by
  rw [pageEntries_entriesAt]
  exact Value.lookup?_put_self ..

/-- **What arrives** when a link is followed: the fields of the page as texts. -/
theorem readBack_entriesAt (h : IsLinkable entries) (hnumber : isWritable number = true) :
    readBack (flatten (entriesAt number entries)) (pageEntries (entriesAt number entries)) =
      spelled (pageEntries (entriesAt number entries)) := by
  have hlinked := h.entriesAt hnumber
  refine readBack_eq_spelled hlinked.distinctPage fun name hname => ?_
  have hplain := isPlainKey_of_mem_fieldNames hname
  rw [lookup_flatten hplain (by decide) hlinked.distinct hlinked.others, lookup?_page_entriesAt,
    Option.bind_some, flattenValue]
  refine lookup_flattenEntries hplain (by decide) hlinked.distinctPage fun v hv => ?_
  have hfield := hlinked.fields name hname
  rw [fieldValue, hv, Option.getD_some] at hfield
  cases v <;> simp_all [isFieldValue, isSingle]

theorem pageEntries_arriving (h : IsLinkable entries) (hnumber : isWritable number = true) :
    pageEntries (arriving number entries) = spelled (pageEntries (entriesAt number entries)) := by
  rw [pageEntries, arriving, follow, Value.lookup?_put_self, readBack_entriesAt h hnumber]

/-- **The fields that arrive** are those of the page that the link stands for. -/
theorem read_arriving (h : IsLinkable entries) (hnumber : isWritable number = true)
    (hlow : 1 ≤ number) {f : PageFields} (hread : PageFields.read (pageEntries entries) = .ok f) :
    PageFields.read (pageEntries (arriving number entries)) =
      .ok { f with number := some number } := by
  have hlinked := h.entriesAt hnumber
  rw [pageEntries_arriving h hnumber, read_spelled hlinked.distinctPage hlinked.fields,
    read_entriesAt hread hlow]

/-- The parameters behind the link that arrives: the page number as an integer, and the other fields
as texts. -/
theorem entriesAt_arriving (h : IsLinkable entries) (hnumber : isWritable number = true) :
    entriesAt number (arriving number entries) =
      Value.put (.str "page") (.map (Value.put (.str "number") (.int number)
        (spelled (pageEntries (entriesAt number entries))))) entries := by
  rw [entriesAt, pageEntries_arriving h hnumber, arriving, follow, Value.put_put, entriesAt,
    Value.put_put]

theorem lookup?_number_spelled (h : IsLinkable entries) (hnumber : isWritable number = true) :
    Value.lookup? "number" (spelled (pageEntries (entriesAt number entries))) =
      some (.str (toString number)) := by
  rw [lookup?_spelled (h.entriesAt hnumber).distinctPage (by decide), pageEntries_entriesAt,
    Value.lookup?_put_self]
  rfl

/-- **The link that arrives** is written again. -/
theorem linkText_arriving (h : IsLinkable entries) (hnumber : isWritable number = true)
    (base : Option String) :
    linkText base (arriving number entries) number = linkText base entries number := by
  have hlinked := h.entriesAt hnumber
  have hpage (parent : String) :
      flattenValue parent (.map (Value.put (.str "number") (.int number)
          (spelled (pageEntries (entriesAt number entries))))) =
        flattenValue parent (.map (pageEntries (entriesAt number entries))) := by
    have htext : ∀ parent, flattenValue parent (.int number) =
        flattenValue parent (.str (toString number)) := fun _ => rfl
    rw [flattenValue, flattenValue, flattenEntries_put (lookup?_number_spelled h hnumber) htext,
      flattenEntries_spelled hlinked.distinctPage hlinked.fields]
  have hflatten : flatten (entriesAt number (arriving number entries)) =
      flatten (entriesAt number entries) := by
    rw [entriesAt_arriving h hnumber, flatten_put_congr hpage, pageEntries_entriesAt]
    rfl
  unfold linkText spell
  rw [hflatten]

/-- **The request that arrives** has links if the one behind the link has. -/
theorem looseInLinks?_arriving (h : IsLinkable entries) (hnumber : isWritable number = true) :
    looseInLinks? (arriving number entries) = looseInLinks? entries := by
  have hlinked := h.entriesAt hnumber
  have hpage (parent : List Nat) :
      looseInValue? parent (.map (Value.put (.str "number") (.int number)
          (spelled (pageEntries (entriesAt number entries))))) =
        looseInValue? parent (.map (pageEntries (entriesAt number entries))) := by
    have htext : ∀ parent, looseInValue? parent (.int number) =
        looseInValue? parent (.str (toString number)) := fun _ => rfl
    rw [looseInValue?, looseInValue?,
      looseInEntries?_put (lookup?_number_spelled h hnumber) htext,
      looseInEntries?_spelled hlinked.distinctPage hlinked.fields]
  rw [← looseIn?_entriesAt number, entriesAt_arriving h hnumber, ← looseIn?_entriesAt number,
    looseIn?, looseInEntries?_put_congr hpage, pageEntries_entriesAt]
  rfl

end

/-- The pager for other parameters of a request. -/
def Pager.serving (p : Pager) (entries : List (Value × Value)) : Pager :=
  { p with params := .map entries }

theorem entries_serving_arriving (p : Pager) (number : Int) (entries : List (Value × Value)) :
    (p.serving (arriving number entries)).entries = .ok (arriving number entries) :=
  if_pos (Value.isTruthy_map_put ..)

/-- **Following a link** to a page from one to the last one gives that page, and the page links to
itself by the same text. -/
theorem paginate_follow {p : Pager} {entries : List (Value × Value)} {m : Memory} {f : PageFields}
    {records pages : Int} {offset : Quantity} {number : Int} (hkind : p.kind = .page)
    (h : IsLinkable entries) (hlinks : HasLinks entries)
    (hread : PageFields.read (pageEntries entries) = .ok f) (hrecords : m.size = .ok records)
    (hpages : (PageWindow.ofFields p.settings f).size.pages? records = some pages)
    (hoffset : (PageWindow.ofFields p.settings f).offset? = some offset) (hlow : 1 ≤ number)
    (hhigh : number ≤ max 1 pages) :
    ∃ page links,
      ((p.serving (arriving number entries)).paginate (Selection.live m)).result =
        .ok (page, .numbered { pageInfo p f ⟨records, max 1 pages⟩ with number } links) ∧
      links.self = linkText p.base entries number := by
  have hgreatest : number ≤ greatestDouble := by
    have hone : (1 : Int) ≤ greatestDouble := by exact_mod_cast one_le_greatestDouble
    have := pages_le_greatestDouble hpages
    omega
  have hnumber : isWritable number = true := isWritable_of_natAbs_le (by omega)
  obtain ⟨start, hstart⟩ := Option.isSome_iff_exists.mp
    (isSome_offset? (w := PageWindow.ofFields p.settings f) (by rw [hoffset]; rfl) hlow hgreatest)
  have hbegin := (result_beginPage_eq_ok_iff (p := p.serving (arriving number entries))).mpr
    ⟨{ f with number := some number }, records, pages, start,
      read_arriving h hnumber hlow hread, hrecords, hpages, hhigh, hstart,
      (looseInLinks?_arriving h hnumber).trans hlinks, rfl, rfl⟩
  exact ⟨_, _, (result_paginate_eq_ok_iff (p := p.serving (arriving number entries)) hkind
    (entries_serving_arriving ..)).mpr hbegin, linkText_arriving h hnumber p.base⟩

/-- **Every link of a page can be followed.** -/
theorem links_can_be_followed {p : Pager} {entries : List (Value × Value)} {m : Memory}
    {details : Details} {page : Selection Memory} (hkind : p.kind = .page)
    (hentries : p.entries = .ok entries) (h : IsLinkable entries)
    (hresult : (p.paginate (Selection.live m)).result = .ok (page, details)) :
    ∃ info links counts, details = .numbered info links ∧ info.counts = some counts ∧
      ∀ target ∈ links.targets info.number counts.pages,
        ∃ pairs page' links',
          QueryString.pairs? p.base target.2 = some pairs ∧
          pairs = flatten (entriesAt target.1 entries) ∧
          ((p.serving (follow pairs (entriesAt target.1 entries))).paginate
              (Selection.live m)).result =
            .ok (page', .numbered { info with number := target.1 } links') ∧
          links'.self = target.2 := by
  obtain ⟨f, records, pages, offset, hread, hrecords, hpages, hle, hoffset, hlinks, rfl, rfl⟩ :=
    result_beginPage_eq_ok_iff.mp ((result_paginate_eq_ok_iff hkind hentries).mp hresult)
  refine ⟨_, _, _, rfl, rfl, fun target htarget => ?_⟩
  have hnumber : 1 ≤ (PageWindow.ofFields p.settings f).number :=
    (PageFields.bounds_of_read hread).one_le_number
  obtain ⟨hlink, hlow, hhigh⟩ := exists_of_mem_targets hnumber hle htarget
  obtain ⟨page, links, hfollow, hself⟩ :=
    paginate_follow hkind h hlinks hread hrecords hpages hoffset hlow hhigh
  refine ⟨_, page, links, ?_, rfl, hfollow, hself.trans hlink.symm⟩
  rw [hlink]
  exact pairs?_spell (entriesAt target.1 entries) p.base

/-- The link from the second of three pages to the third, with a size in blanks, an absent offset
and another parameter. -/
theorem next_link_can_be_followed :
    ∃ (entries : List (Value × Value)) (m : Memory), IsLinkable entries ∧
      ∃ pairs page links,
        QueryString.pairs? (some "/rows") "/rows?sort=-n&page[size]=+2+&page[number]=3" =
          some pairs ∧
        ((Pager.serving ⟨.page, .null, .default, some "/rows"⟩
            (follow pairs (entriesAt 3 entries))).paginate (Selection.live m)).result =
          .ok (page, .numbered ⟨3, .whole 2, 0, .whole 100, some ⟨5, 3⟩⟩ links) ∧
        links.self = "/rows?sort=-n&page[size]=+2+&page[number]=3" := by
  let entries : List (Value × Value) := [(.str "sort", .str "-n"), (.str "page", .map
    [(.str "size", .str " 2 "), (.str "number", .int 2), (.str "offset", .null)])]
  let m : Memory := { items := [.int 1, .int 2, .int 3, .int 4, .int 5] }
  have hlinkable : IsLinkable entries := by
    refine ⟨?_, ?_, ?_, ?_⟩
    · simp [entries]
    · simp [entries, pageEntries, Value.lookup?, Value.text?]
    · simp only [entries, List.forall_mem_cons]
      exact ⟨fun _ => ⟨by decide, by decide⟩, fun hne => absurd rfl hne, List.forall_mem_nil _⟩
    · simp only [fieldNames, List.forall_mem_cons]
      exact ⟨by decide +kernel, rfl, rfl, rfl, List.forall_mem_nil _⟩
  have hlinks : PageLinks.around (linkText (some "/rows") entries) 2 (some 3) true =
      ⟨"/rows?sort=-n&page[size]=+2+&page[number]=2", "/rows?sort=-n&page[size]=+2+&page[number]=1",
        some "/rows?sort=-n&page[size]=+2+&page[number]=3",
        some "/rows?sort=-n&page[size]=+2+&page[number]=1",
        some "/rows?sort=-n&page[size]=+2+&page[number]=3"⟩ := by
    decide +kernel
  have hresult : (Pager.paginate ⟨.page, .map entries, .default, some "/rows"⟩
      (Selection.live m)).result = .ok (.live { m with offset := .int 2, limit := .int 2 },
        .numbered ⟨2, .whole 2, 0, .whole 100, some ⟨5, 3⟩⟩
          (.around (linkText (some "/rows") entries) 2 (some 3) true)) := by
    have hread : PageFields.read (pageEntries entries) = .ok ⟨some 2, some 2, none, none⟩ := by rfl
    have hhas : looseInLinks? entries = none := by decide +kernel
    exact (result_paginate_eq_ok_iff rfl rfl).mpr (result_beginPage_eq_ok_iff.mpr
      ⟨_, 5, 3, .whole 2, hread, rfl, by decide +kernel, by decide +kernel, by decide +kernel, hhas,
        rfl, rfl⟩)
  rw [hlinks] at hresult
  obtain ⟨info, links, counts, hdetails, hcounts, htargets⟩ :=
    links_can_be_followed (m := m) rfl rfl hlinkable hresult
  cases hdetails
  cases hcounts
  obtain ⟨pairs, page, links, hpairs, -, hfollow, hself⟩ :=
    htargets (3, "/rows?sort=-n&page[size]=+2+&page[number]=3") (by decide)
  exact ⟨entries, m, hlinkable, pairs, page, links, hpairs, hfollow, hself⟩

end ResourceQuery.Pagination
