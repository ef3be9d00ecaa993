import ResourceQuery.Proofs.Pagination.Partition
import ResourceQuery.Proofs.Query.FilterParameters
import ResourceQuery.Proofs.Request.PairNames

/-!
# Links keep filters

A link repeats the parameters of its request, so whoever follows it reads the filters back from its
pairs. An absent value and an empty list have no pair. For a rule they say no more than a parameter
that is missing, unless the rule asks for absent values as well: a request for these is lost on the
way.

Headlines:
* **`QueryString.belongsTo`**, **`QueryString.filter_flatten`**: the pairs of one parameter.
* **`QueryString.readMap`**: the map that a parameter is read back as.
* **`Pagination.isWritten`**: the values that have a pair.
* **`Pagination.readMap_flatten`**: what is read back of filters.
* **`Pagination.links_keep_filters`**: every link of a page; **`link_loses_absent_value`**: what a
  link does not keep.
-/

namespace ResourceQuery

/-! ## The pairs of one parameter -/

namespace QueryString

open Text

/-- Does a pair belong to a parameter, or to a key inside it? -/
def belongsTo (parent : String) (pair : String × String) : Bool :=
  (keysOf pair.1).head? == some parent

/-- The map that the pairs of a parameter stand for. -/
def readMap (parent : String) (pairs : List (String × String)) : List (Value × Value) :=
  entriesOf (Value.lookup? parent (ofPairs (pairs.filter (belongsTo parent))))

theorem head?_keysOf {name : String} {first : List Char} {rest : List (List Char)}
    (h : segments '[' name.toList = first :: rest) :
    (keysOf name).head? = some (String.ofList first) := by
  unfold keysOf
  rw [h]
  rfl

/-- A name that is a parameter's own, or goes on with a bracket, belongs to the parameter. -/
theorem belongsTo_of_rest {parent : String} (hparent : '[' ∉ parent.toList)
    {pair : String × String} {rest : List Char} (hname : pair.1.toList = parent.toList ++ rest)
    (hrest : IsNameRest rest) : belongsTo parent pair = true := by
  have hsegments : ∃ more, segments '[' pair.1.toList = parent.toList :: more := by
    rcases hrest with rfl | hrest
    · rw [hname, List.append_nil, segments_of_not_mem hparent]
      exact ⟨[], rfl⟩
    · obtain ⟨tail, rfl⟩ := List.head?_eq_some_iff.mp hrest
      rw [hname, segments_append_sep hparent]
      exact ⟨_, rfl⟩
  obtain ⟨more, hmore⟩ := hsegments
  rw [belongsTo, head?_keysOf hmore, String.ofList_toList, beq_self_eq_true]

/-- Only such names do. -/
theorem exists_rest_of_belongsTo {parent : String} {pair : String × String}
    (h : belongsTo parent pair = true) :
    ∃ rest, pair.1.toList = parent.toList ++ rest ∧ IsNameRest rest := by
  cases hsegments : segments '[' pair.1.toList with
  | nil => exact absurd hsegments (segments_ne_nil _ _)
  | cons first others =>
    rw [belongsTo, head?_keysOf hsegments, beq_iff_eq, Option.some.injEq] at h
    subst h
    have hjoin := joinWith_segments '[' pair.1.toList
    rw [hsegments] at hjoin
    rw [String.toList_ofList]
    cases others with
    | nil => exact ⟨[], by rw [← hjoin, List.append_nil]; rfl, .inl rfl⟩
    | cons second others =>
      rw [joinWith_cons (List.cons_ne_nil _ _)] at hjoin
      exact ⟨_, hjoin.symm, .inr rfl⟩

section

variable {parent : String} (hparent : isPlainKey parent = true)
include hparent

/-- Another parameter has no pair that belongs to this one, unless it is named like a key inside
it. -/
theorem not_belongsTo_of_ne {key v : Value} (hne : key ≠ .str parent) (hempty : key.plain ≠ "")
    (hinside : ¬ (parent ++ "[").toList <+: key.plain.toList) {pair : String × String}
    (hpair : pair ∈ flattenValue key.plain v) : ¬ belongsTo parent pair = true := by
  intro hbelongs
  have hopen : '[' ∉ parent.toList := not_mem_of_isPlainKey hparent (by decide)
  obtain ⟨rest, hname, hrest⟩ := exists_rest_of_belongsTo hbelongs
  obtain ⟨more, hname', hmore⟩ := name_of_mem_flattenValue hempty hpair
  rcases List.append_eq_append_iff.mp (hname.symm.trans hname') with
    ⟨tail, hplain, -⟩ | ⟨tail, hplain, hmore'⟩
  · -- the key goes on behind the name of the parameter
    cases tail with
    | nil =>
      rw [List.append_nil] at hplain
      exact hne (eq_str_of_plain hparent (String.toList_injective hplain))
    | cons c tail =>
      rcases hrest with rfl | hrest
      · rw [hname, List.append_nil, hplain] at hname'
        simp at hname'
      · obtain ⟨others, rfl⟩ := List.head?_eq_some_iff.mp hrest
        rw [hname, hplain, List.append_assoc] at hname'
        have hc : '[' = c := (List.cons_eq_cons.mp (List.append_cancel_left hname')).1
        exact hinside ⟨tail, by rw [hplain, ← hc]; simp⟩
  · -- the name of the parameter goes on behind the key
    cases tail with
    | nil =>
      rw [List.append_nil] at hplain
      exact hne (eq_str_of_plain hparent (String.toList_injective hplain.symm))
    | cons c tail =>
      rcases hmore with rfl | hmore
      · simp at hmore'
      · obtain ⟨others, rfl⟩ := List.head?_eq_some_iff.mp hmore
        have hc : '[' = c := (List.cons_eq_cons.mp hmore').1
        exact hopen (by rw [hplain, ← hc]; simp)

/-- **The pairs of one parameter** among those of all. -/
theorem filter_flatten {entries : List (Value × Value)}
    (hdistinct : entries.Pairwise fun a b => a.1 ≠ b.1)
    (hothers : ∀ e ∈ entries, e.1 ≠ .str parent →
      e.1.plain ≠ "" ∧ ¬ (parent ++ "[").toList <+: e.1.plain.toList) (hne : parent ≠ "") :
    (flatten entries).filter (belongsTo parent) =
      (Value.lookup? parent entries).elim [] (flattenValue parent) := by
  have hopen : '[' ∉ parent.toList := not_mem_of_isPlainKey hparent (by decide)
  unfold flatten
  induction entries with
  | nil => rfl
  | cons e rest ih =>
    obtain ⟨key, v⟩ := e
    rw [List.pairwise_cons] at hdistinct
    rw [List.forall_mem_cons] at hothers
    have htop : nestedName "" key = key.plain := if_pos rfl
    rw [flattenEntries, List.filter_append, htop, ih hdistinct.2 hothers.2]
    by_cases hkey : key = .str parent
    · subst hkey
      have hnone : Value.lookup? parent rest = none := Value.lookup?_eq_none fun e he htext =>
        hdistinct.1 e he ((text?_eq_some_iff hparent).mp htext).symm
      have hfound : Value.lookup? parent ((.str parent, v) :: rest) = some v := by
        simp [Value.lookup?, Value.text?]
      have hkept : (flattenValue parent v).filter (belongsTo parent) = flattenValue parent v := by
        refine List.filter_eq_self.mpr fun pair hpair => ?_
        obtain ⟨more, hname, hmore⟩ := name_of_mem_flattenValue hne hpair
        exact belongsTo_of_rest hopen hname hmore
      rw [hnone, hfound]
      exact (List.append_nil _).trans hkept
    · have hskip : Value.lookup? parent ((key, v) :: rest) = Value.lookup? parent rest :=
        if_neg fun htext => hkey ((text?_eq_some_iff hparent).mp htext)
      have hdropped : (flattenValue key.plain v).filter (belongsTo parent) = [] := by
        obtain ⟨hempty, hinside⟩ := hothers.1 hkey
        exact List.filter_eq_nil_iff.mpr fun pair hpair =>
          not_belongsTo_of_ne hparent hkey hempty hinside hpair
      rw [hdropped, hskip, List.nil_append]

end

end QueryString

namespace Pagination

open QueryString

/-! ## Filters of a request -/

/-- Is a value written at all? The absent value and an empty list have no pair. -/
def isWritten : Value → Bool
  | .null => false
  | .list items => !items.isEmpty
  | _ => true

/-- A value that a filter may have: nothing, a text or a list of texts. -/
def isFilterValue : Value → Bool
  | .null | .str _ => true
  | .list items => items.all isText
  | _ => false

/-- Parameters whose filters keep apart from all others: no key stands twice, no other parameter is
named like a filter, and the filters have different names that names of pairs can hold. -/
structure HoldsFilters (entries fs : List (Value × Value)) : Prop where
  distinct : entries.Pairwise fun a b => a.1 ≠ b.1
  filters : Value.lookup? "filter" entries = some (.map fs)
  others : ∀ e ∈ entries, e.1 ≠ .str "filter" →
    e.1.plain ≠ "" ∧ ¬ "filter[".toList <+: e.1.plain.toList
  distinctNames : fs.Pairwise fun a b => a.1 ≠ b.1
  names : ∀ e ∈ fs, ∃ name, e.1 = .str name ∧ isKeyName name = true
  values : ∀ e ∈ fs, isFilterValue e.2 = true

section

variable {entries fs : List (Value × Value)}

/-- The filters of another page of the request are the same. -/
theorem HoldsFilters.entriesAt (h : HoldsFilters entries fs) (number : Int) :
    HoldsFilters (entriesAt number entries) fs where
  distinct := Value.pairwise_put _ _ h.distinct
  filters := by
    rw [Pagination.entriesAt, Value.lookup?_put_of_ne (by decide)]
    exact h.filters
  others := by
    intro e he hne
    rcases Value.key_of_mem_put he with hkey | ⟨old, hold, hkey⟩
    · rw [hkey]
      exact ⟨by decide, by decide⟩
    · rw [← hkey] at hne ⊢
      exact h.others old hold hne
  distinctNames := h.distinctNames
  names := h.names
  values := h.values

/-- The filters that have a pair. -/
def writtenFilters (fs : List (Value × Value)) : List (Value × Value) :=
  fs.filter fun e => isWritten e.2

theorem writtenFilters_cons (e : Value × Value) (fs : List (Value × Value)) :
    writtenFilters (e :: fs) =
      if isWritten e.2 = true then e :: writtenFilters fs else writtenFilters fs :=
  List.filter_cons

theorem eq_of_not_isWritten {v : Value} (h : ¬ isWritten v = true) : v = .null ∨ v = .list [] := by
  cases v with
  | null => exact .inl rfl
  | list items =>
    cases items with
    | nil => exact .inr rfl
    | cons item items => exact absurd rfl h
  | _ => exact absurd rfl h

/-- Values that are not written have no pair. -/
theorem flattenEntries_writtenFilters (fs : List (Value × Value)) (parent : String) :
    flattenEntries parent (writtenFilters fs) = flattenEntries parent fs := by
  induction fs with
  | nil => rfl
  | cons e rest ih =>
    obtain ⟨key, v⟩ := e
    rw [writtenFilters_cons, flattenEntries]
    split
    · rw [flattenEntries, ih]
    · next hv =>
      have hnone : flattenValue (nestedName parent key) v = [] := by
        rcases eq_of_not_isWritten hv with rfl | rfl <;> rfl
      rw [ih, hnone, List.nil_append]

/-- A filter is found if it has a pair. -/
theorem lookup?_writtenFilters {name : String} (hdistinct : fs.Pairwise fun a b => a.1 ≠ b.1)
    (hnames : ∀ e ∈ fs, ∃ name, e.1 = .str name ∧ isKeyName name = true) :
    Value.lookup? name (writtenFilters fs) = (Value.lookup? name fs).filter isWritten := by
  induction fs with
  | nil => rfl
  | cons e rest ih =>
    obtain ⟨key, v⟩ := e
    rw [List.pairwise_cons] at hdistinct
    rw [List.forall_mem_cons] at hnames
    obtain ⟨⟨own, rfl, -⟩, hothers⟩ := hnames
    have hrest := ih hdistinct.2 hothers
    rw [writtenFilters_cons]
    by_cases hown : own = name
    · have hnone : Value.lookup? name rest = none := by
        refine Value.lookup?_eq_none fun e he htext => ?_
        obtain ⟨other, hother, -⟩ := hothers e he
        rw [hother] at htext
        refine hdistinct.1 e he ?_
        rw [hother, Option.some.inj htext, hown]
      rw [hnone] at hrest
      split
      · next hv =>
        have hfound (others : List (Value × Value)) :
            Value.lookup? name ((.str own, v) :: others) = some v :=
          if_pos (congrArg some hown)
        rw [hfound, hfound, Option.filter_some, if_pos (show isWritten v = true from hv)]
      · next hv =>
        have hfound : Value.lookup? name ((.str own, v) :: rest) = some v :=
          if_pos (congrArg some hown)
        rw [hrest, hfound, Option.filter_some, if_neg (show ¬ isWritten v = true from hv)]
        rfl
    · have hskip (others : List (Value × Value)) :
          Value.lookup? name ((.str own, v) :: others) = Value.lookup? name others :=
        if_neg fun htext => hown (Option.some.inj htext)
      rw [hskip, ← hrest]
      split
      · exact hskip _
      · rfl

/-- Filters that have a pair are in normal form. -/
theorem isNormal_writtenFilters (hdistinct : fs.Pairwise fun a b => a.1 ≠ b.1)
    (hnames : ∀ e ∈ fs, ∃ name, e.1 = .str name ∧ isKeyName name = true)
    (hvalues : ∀ e ∈ fs, isFilterValue e.2 = true) : isNormal (writtenFilters fs) = true := by
  induction fs with
  | nil => rfl
  | cons e rest ih =>
    obtain ⟨key, v⟩ := e
    rw [List.pairwise_cons] at hdistinct
    rw [List.forall_mem_cons] at hnames hvalues
    have hrest := ih hdistinct.2 hnames.2 hvalues.2
    rw [writtenFilters_cons]
    split
    · next hv =>
      obtain ⟨⟨name, rfl, hname⟩, hothers⟩ := hnames
      refine isNormal_cons_iff.mpr ⟨name, rfl, hname, ?_, ?_, hrest⟩
      · refine Value.lookup?_eq_none fun e he htext => ?_
        obtain ⟨other, hother, -⟩ := hothers e (List.mem_of_mem_filter he)
        rw [hother] at htext
        refine hdistinct.1 e (List.mem_of_mem_filter he) ?_
        rw [hother, Option.some.inj htext]
      · have hvalue := hvalues.1
        cases v with
        | null => cases hv
        | str s => rfl
        | list items => exact Bool.and_eq_true_iff.mpr ⟨hv, hvalue⟩
        | _ => cases hvalue
    · exact hrest

/-- **What is read back of filters** are those that have a pair. -/
theorem readMap_flatten (h : HoldsFilters entries fs) :
    readMap "filter" (flatten entries) = writtenFilters fs := by
  have hpairs : (flatten entries).filter (belongsTo "filter") =
      flattenEntries "filter" (writtenFilters fs) := by
    rw [filter_flatten (by decide) h.distinct h.others (by decide), h.filters,
      flattenEntries_writtenFilters]
    rfl
  unfold readMap
  rw [hpairs]
  by_cases hnone : writtenFilters fs = []
  · rw [hnone]
    rfl
  · have hnormal : isNormal [(.str "filter", .map (writtenFilters fs))] = true := by
      refine isNormal_cons_iff.mpr ⟨"filter", rfl, by decide, rfl, ?_, rfl⟩
      simp [isNormalValue, hnone, isNormal_writtenFilters h.distinctNames h.names h.values]
    have hflatten : flatten [(.str "filter", .map (writtenFilters fs))] =
        flattenEntries "filter" (writtenFilters fs) := List.append_nil _
    rw [← hflatten, ofPairs_flatten hnormal]
    rfl

/-! ## Filters of a link -/

/-- Does a rule ask for absent values by their being given? -/
def AsksForAbsent {C : Type} (r : FilterRule C) : Prop := r.allowNil = true ∧ r.guards = []

/-- Filters without a pair are missing, which is the same to a rule that does not ask for absent
values. -/
theorem agree_writtenFilters {C : Type} {r : FilterRule C}
    (hdistinct : fs.Pairwise fun a b => a.1 ≠ b.1)
    (hnames : ∀ e ∈ fs, ∃ name, e.1 = .str name ∧ isKeyName name = true)
    (hasks : AsksForAbsent r → ∀ v, Value.lookup? r.parameter fs = some v → isWritten v = true) :
    r.Agree (writtenFilters fs) fs := by
  have hlookup : Value.lookup? r.parameter (writtenFilters fs) =
      (Value.lookup? r.parameter fs).filter isWritten := lookup?_writtenFilters hdistinct hnames
  cases hfound : Value.lookup? r.parameter fs with
  | none =>
    rw [hfound] at hlookup
    exact .of_lookup? (hlookup.trans hfound.symm)
  | some v =>
    rw [hfound, Option.filter_some] at hlookup
    split at hlookup
    · exact .of_lookup? (hlookup.trans hfound.symm)
    · next hv =>
      refine ⟨?_, fun hnil hguards => absurd (hasks ⟨hnil, hguards⟩ v hfound) hv⟩
      rw [hlookup, hfound]
      rcases eq_of_not_isWritten hv with rfl | rfl <;> rfl

end

/-- The links of a page. -/
def PageLinks.urls (links : PageLinks) : List String :=
  [links.self, links.first] ++ links.last.toList ++ links.previous.toList ++ links.next.toList

/-- Every link stands for a page number. -/
theorem exists_of_mem_urls {link : Int → String} {number : Int} {last : Option Int}
    {hasNext : Bool} {url : String}
    (h : url ∈ (PageLinks.around link number last hasNext).urls) : ∃ target, url = link target := by
  simp only [PageLinks.urls, PageLinks.around, List.cons_append, List.nil_append, List.append_assoc,
    List.mem_cons, List.mem_append, Option.mem_toList, Option.map_eq_some_iff] at h
  rcases h with rfl | rfl | ⟨page, -, rfl⟩ | h | h
  · exact ⟨_, rfl⟩
  · exact ⟨_, rfl⟩
  · exact ⟨_, rfl⟩
  · split at h
    · cases h
      exact ⟨_, rfl⟩
    · cases h
  · split at h
    · cases h
      exact ⟨_, rfl⟩
    · cases h

section

variable {C : Type} [Collection C] {p : Pager} {entries : List (Value × Value)}

/-- A numbered page that is begun has the links of its request. -/
theorem exists_around_of_beginPage {collection page : C} {details : Details}
    (h : (p.beginPage entries collection).result = .ok (details, page)) :
    ∃ info number last hasNext,
      details = .numbered info (.around (linkText p.base entries) number last hasNext) := by
  obtain ⟨f, -, h⟩ := Traced.result_bind_eq_ok_iff.mp h
  obtain ⟨records, -, h⟩ := Traced.result_bind_eq_ok_iff.mp h
  obtain ⟨pages, -, h⟩ := Traced.result_bind_eq_ok_iff.mp h
  simp only at h
  split at h
  · cases h
  · obtain ⟨offset, -, h⟩ := Traced.result_bind_eq_ok_iff.mp h
    obtain ⟨logged, -, h⟩ := Traced.result_bind_eq_ok_iff.mp h
    obtain ⟨windowed, -, h⟩ := Traced.result_bind_eq_ok_iff.mp h
    obtain ⟨links, hlinks, h⟩ := Traced.result_bind_eq_ok_iff.mp h
    obtain ⟨-, rfl⟩ := linksOf_eq_ok_iff.mp hlinks
    cases h
    exact ⟨_, _, _, _, rfl⟩

/-- So has a page that is begun without a count. -/
theorem exists_around_of_beginCountless {collection : C} {details : Details}
    {rows : Traced (List Value)}
    (h : (p.beginCountless entries collection).result = .ok (details, rows)) :
    ∃ info number last hasNext,
      details = .numbered info (.around (linkText p.base entries) number last hasNext) := by
  obtain ⟨f, -, h⟩ := Traced.result_bind_eq_ok_iff.mp h
  obtain ⟨offset, -, h⟩ := Traced.result_bind_eq_ok_iff.mp h
  obtain ⟨logged, -, h⟩ := Traced.result_bind_eq_ok_iff.mp h
  obtain ⟨started, -, h⟩ := Traced.result_bind_eq_ok_iff.mp h
  obtain ⟨size, -, h⟩ := Traced.result_bind_eq_ok_iff.mp h
  obtain ⟨limited, -, h⟩ := Traced.result_bind_eq_ok_iff.mp h
  obtain ⟨fetched, -, h⟩ := Traced.result_bind_eq_ok_iff.mp h
  obtain ⟨links, hlinks, h⟩ := Traced.result_bind_eq_ok_iff.mp h
  obtain ⟨-, rfl⟩ := linksOf_eq_ok_iff.mp hlinks
  simp only at h
  split at h
  · obtain ⟨checked, -, h⟩ := Traced.result_bind_eq_ok_iff.mp h
    cases h
    exact ⟨_, _, _, _, rfl⟩
  · cases h
    exact ⟨_, _, _, _, rfl⟩

/-- A page that reports links has those of its request, whatever the collection is. -/
theorem exists_around_of_paginate (hkind : p.kind = .page ∨ p.kind = .countless)
    (hentries : p.entries = .ok entries) {collection page : Selection C} {details : Details}
    (h : (p.paginate collection).result = .ok (page, details)) :
    ∃ info number last hasNext,
      details = .numbered info (.around (linkText p.base entries) number last hasNext) := by
  obtain ⟨⟨begun, records⟩, hbegin, h⟩ := Traced.result_bind_eq_ok_iff.mp h
  obtain ⟨rows, -, h⟩ := Traced.result_bind_eq_ok_iff.mp h
  cases h
  unfold Pager.begin at hbegin
  rcases hkind with hkind | hkind
  · rw [hkind, hentries] at hbegin
    obtain ⟨found, hfound, hbegin⟩ := Traced.result_bind_eq_ok_iff.mp hbegin
    cases hfound
    obtain ⟨⟨begun', opened⟩, hpage, hbegin⟩ := Traced.result_bind_eq_ok_iff.mp hbegin
    cases hbegin
    exact exists_around_of_beginPage hpage
  · rw [hkind, hentries] at hbegin
    obtain ⟨found, hfound, hbegin⟩ := Traced.result_bind_eq_ok_iff.mp hbegin
    cases hfound
    obtain ⟨⟨begun', opened⟩, hpage, hbegin⟩ := Traced.result_bind_eq_ok_iff.mp hbegin
    cases hbegin
    exact exists_around_of_beginCountless hpage

/-- **Every link of a page keeps the filters**: whoever follows it has the filters that have a pair,
and they make the calls that those of the request make. -/
theorem links_keep_filters {rules : QueryRules C} {fs : List (Value × Value)}
    (hkind : p.kind = .page ∨ p.kind = .countless) (hentries : p.entries = .ok entries)
    (h : HoldsFilters entries fs)
    (hasks : ∀ r ∈ rules.filters, AsksForAbsent r →
      ∀ v, Value.lookup? r.parameter fs = some v → isWritten v = true)
    {collection page : Selection C} {details : Details}
    (hpage : (p.paginate collection).result = .ok (page, details)) :
    ∃ info links, details = .numbered info links ∧
      ∀ url ∈ links.urls, ∃ pairs, QueryString.pairs? p.base url = some pairs ∧
        readMap "filter" pairs = writtenFilters fs ∧
        ∀ c, rules.filter (.map (readMap "filter" pairs)) c = rules.filter (.map fs) c := by
  obtain ⟨info, number, last, hasNext, rfl⟩ := exists_around_of_paginate hkind hentries hpage
  refine ⟨_, _, rfl, fun url hurl => ?_⟩
  obtain ⟨target, rfl⟩ := exists_of_mem_urls hurl
  have hread : readMap "filter" (flatten (Pagination.entriesAt target entries)) =
      writtenFilters fs := readMap_flatten (h.entriesAt target)
  refine ⟨_, pairs?_spell (Pagination.entriesAt target entries) p.base, hread, fun c => ?_⟩
  rw [hread]
  exact QueryRules.filter_congr
    (fun r hr => agree_writtenFilters h.distinctNames h.names (hasks r hr)) c

end

/-- A filter by team, which may be none, and one by age, which has to be given. -/
def teamRules : QueryRules Recorder where
  filters := [
    { name := "team", parameter := "team", allowNil := true, guards := []
      strategy := .equality "team" },
    { name := "age", parameter := "age", allowNil := false, guards := []
      strategy := .equality "age" }]

/-- A collection that only counts its records stays as it is on any of its pages. -/
theorem result_paginate_recorder {p : Pager} {entries : List (Value × Value)} {f : PageFields}
    {records last : Nat} (hkind : p.kind = .page) (hentries : p.entries = .ok entries)
    (hsettings : p.settings.IsTyped) (hread : PageFields.read (pageEntries entries) = .ok f)
    (hrecords : records ≤ 2 ^ 53) (hlast : lastPage records (pageSize p.settings f) = last)
    (hle : (PageWindow.ofFields p.settings f).number ≤ last) (hlinks : HasLinks entries) :
    (p.paginate (Selection.live (⟨records, []⟩ : Recorder))).result =
      .ok (.live ⟨records, []⟩,
        .numbered (pageInfo p f ⟨records, last⟩) (pageLinks p entries f last)) := by
  have hcount : (Collection.count (Selection.live (⟨records, []⟩ : Recorder))).result =
      .ok ((records : Nat) : Int) := rfl
  rw [result_paginate_of_page hkind hentries, result_beginPage_of_count hsettings hread hcount
    hrecords rfl hlast, if_neg (Int.not_lt.mpr hle), linksOf_of_hasLinks hlinks]
  rfl

/-- The third of the pages of one record, with a blank team, no age and two tags. -/
theorem links_keep_filters_of_teams :
    ∃ entries fs : List (Value × Value), HoldsFilters entries fs ∧
      (∀ r ∈ teamRules.filters, AsksForAbsent r →
        ∀ v, Value.lookup? r.parameter fs = some v → isWritten v = true) ∧
      (teamRules.filter (.map fs) (.live ⟨7, []⟩)).accesses =
        [.apply (.ofCall (.restrict [] [("team", .null)]))] ∧
      ∃ pairs,
        QueryString.pairs? none
            "?filter[team]=+&filter[tags][]=a&filter[tags][]=b&page[size]=1&page[number]=4" =
          some pairs ∧
        readMap "filter" pairs = writtenFilters fs ∧
        ∀ c, teamRules.filter (.map (readMap "filter" pairs)) c = teamRules.filter (.map fs) c := by
  let fs : List (Value × Value) := [(.str "team", .str " "), (.str "age", .null),
    (.str "tags", .list [.str "a", .str "b"])]
  let entries : List (Value × Value) := [(.str "filter", .map fs),
    (.str "page", .map [(.str "size", .int 1), (.str "number", .int 3)])]
  have hholds : HoldsFilters entries fs := by
    refine ⟨?_, rfl, ?_, ?_, ?_, ?_⟩
    · simp [entries]
    · simp only [entries, List.forall_mem_cons]
      exact ⟨fun hne => absurd rfl hne, fun _ => ⟨by decide, by decide⟩, List.forall_mem_nil _⟩
    · simp [fs]
    · simp only [fs, List.forall_mem_cons]
      exact ⟨⟨_, rfl, by decide⟩, ⟨_, rfl, by decide⟩, ⟨_, rfl, by decide⟩, List.forall_mem_nil _⟩
    · simp [fs, isFilterValue, isText]
  have hasks : ∀ r ∈ teamRules.filters, AsksForAbsent r →
      ∀ v, Value.lookup? r.parameter fs = some v → isWritten v = true := by
    simp only [teamRules, List.forall_mem_cons]
    refine ⟨fun _ v hv => ?_, fun h => absurd h.1 (by decide), List.forall_mem_nil _⟩
    cases hv
    rfl
  have hresult : (Pager.paginate ⟨.page, .map entries, .default, none⟩
      (Selection.live (⟨7, []⟩ : Recorder))).result = .ok (.live ⟨7, []⟩,
        .numbered ⟨3, .whole 1, 0, .whole 100, some ⟨7, 7⟩⟩ (.around (linkText none entries) 3
          (some 7) true)) :=
    result_paginate_recorder (f := ⟨some 3, some 1, none, none⟩) rfl rfl ⟨rfl, rfl, rfl⟩ rfl
      (by decide) (by decide +kernel) (by decide) (hasLinks_of_areEncodable rfl)
  obtain ⟨info, links, hdetails, hkeeps⟩ :=
    links_keep_filters (.inl rfl) rfl hholds hasks hresult
  cases hdetails
  refine ⟨entries, fs, hholds, hasks, rfl, hkeeps _ ?_⟩
  have hnext : (PageLinks.around (linkText none entries) 3 (some 7) true).next =
      some "?filter[team]=+&filter[tags][]=a&filter[tags][]=b&page[size]=1&page[number]=4" := by
    decide +kernel
  rw [PageLinks.urls, hnext]
  simp

/-- A team that is asked for as absent has no pair, so the link asks for every team. -/
theorem link_loses_absent_value :
    let fs : List (Value × Value) := [(.str "team", .null)]
    HoldsFilters [(.str "filter", .map fs)] fs ∧
      ∃ page links pairs,
        (Pager.paginate ⟨.page, .map [(.str "filter", .map fs)], .default, none⟩
            (Selection.live (⟨30, []⟩ : Recorder))).result =
          .ok (page, .numbered ⟨1, .whole 20, 0, .whole 100, some ⟨30, 2⟩⟩ links) ∧
        links.next = some "?page[number]=2" ∧
        QueryString.pairs? none "?page[number]=2" = some pairs ∧
        readMap "filter" pairs = [] ∧
        (teamRules.filter (.map (readMap "filter" pairs)) (.live ⟨30, []⟩)).accesses = [] ∧
        (teamRules.filter (.map fs) (.live ⟨30, []⟩)).accesses =
          [.apply (.ofCall (.restrict [] [("team", .null)]))] := by
  intro fs
  refine ⟨⟨?_, rfl, ?_, ?_, ?_, ?_⟩, .live ⟨30, []⟩,
    .around (linkText none [(.str "filter", .map fs)]) 1 (some 2) true,
    [("page[number]", "2")], ?_⟩
  · simp
  · simp
  · simp [fs]
  · simp only [fs, List.forall_mem_cons]
    exact ⟨⟨_, rfl, by decide⟩, List.forall_mem_nil _⟩
  · simp [fs, isFilterValue]
  · refine ⟨?_, ?_, ?_, ?_, ?_, ?_⟩
    · exact result_paginate_recorder (f := ⟨none, none, none, none⟩) rfl rfl ⟨rfl, rfl, rfl⟩ rfl
        (by decide) (by decide +kernel) (by decide) (hasLinks_of_areEncodable rfl)
    · decide +kernel
    · decide +kernel
    · decide +kernel
    · decide +kernel
    · rfl

end Pagination

end ResourceQuery
