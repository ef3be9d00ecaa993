import ResourceQuery.Proofs.Pagination.Countless
import ResourceQuery.Proofs.Pagination.Traversal

/-!
# What pagers refuse

A pager over a collection in memory fails for one of two reasons: fields of the `page` parameter
are wrong, or a numbered page with a count is asked for that lies after the last one. Each field is
judged by its own value, so a wrong one is reported whatever the others hold.

Headlines:
* **`errorOf?`**: why a computation failed.
* **`Paginator.fields`**: the fields of each kind, with what can be wrong with them.
* **`Paginator.wrongFields`**: the fields that are wrong, in the order of their declaration.
* **`errorOf?_pageFields`**, **`errorOf?_keysetFields`**: reading reports exactly these.
* **`Pager.refusal?`**, **`Pager.errorOf?_paginate`**: why a pager fails.
-/

namespace ResourceQuery

/-- Why a computation failed, nothing if it has a result. -/
def errorOf? {α : Type} : Except QueryError α → Option QueryError
  | .ok _ => none
  | .error e => some e

theorem errorOf?_eq_some {α : Type} {result : Except QueryError α} {e : QueryError} :
    errorOf? result = some e ↔ result = .error e := by
  cases result <;> simp [errorOf?]

theorem errorOf?_eq_none {α : Type} {result : Except QueryError α} :
    errorOf? result = none ↔ ∃ a, result = .ok a := by
  cases result <;> simp [errorOf?]

open Pagination

/-! ## Fields -/

namespace Pagination

/-- A field of the `page` parameter, and what is wrong with the value that is given for it. -/
structure PageField where
  name : String
  fault? : Option Value → Option FieldFault

namespace PageField

/-- An integer of numbered pages. -/
def whole (name : String) (bound : Int) : PageField :=
  ⟨name, fun given => faultOf? (blankableField bound (given.getD .null))⟩

/-- What is wrong with a field of a `page` parameter. -/
def faultIn? (field : PageField) (page : List (Value × Value)) : Option FieldFault :=
  field.fault? (Value.lookup? field.name page)

end PageField

/-- The messages for fields that are wrong, one for each. -/
def fieldErrors (wrong : List (String × FieldFault)) : Value :=
  .ofFields (wrong.map fun (name, fault) => ("page." ++ name, .list [.str fault.message]))

theorem invalid_eq (fields : List (String × Option FieldFault)) :
    invalid fields = .invalidPage (fieldErrors
      (fields.filterMap fun (name, fault?) => fault?.map fun fault => (name, fault))) := by
  unfold invalid fieldErrors
  rw [List.map_filterMap]
  congr 3
  funext field
  rw [Option.map_map]
  rfl

end Pagination

namespace Paginator

/-- The fields of a kind of paginator, in the order of their declaration. Any value can be a
position. -/
def fields : Paginator → List PageField
  | .page | .flat | .countless =>
    [.whole "number" 1, .whole "size" 1, .whole "offset" 0, .whole "outset" 0]
  | .keyset =>
    [⟨"column", fun given => faultOf? (KeysetFields.textField (given.getD .null))⟩,
      ⟨"position", fun _ => none⟩,
      ⟨"direction", fun given => faultOf? (Seek.read given)⟩,
      ⟨"limit", fun given => faultOf? (integerField 1 (given.getD .null))⟩]
  | .outline | .custom _ => []

/-- The fields that are wrong, each with its fault. -/
def wrongFields (kind : Paginator) (page : List (Value × Value)) : List (String × FieldFault) :=
  kind.fields.filterMap fun field => (field.faultIn? page).map fun fault => (field.name, fault)

theorem wrongFields_ne_nil_iff {kind : Paginator} {page : List (Value × Value)} :
    kind.wrongFields page ≠ [] ↔ ∃ field ∈ kind.fields, (field.faultIn? page).isSome = true := by
  simp [wrongFields, List.filterMap_eq_nil_iff, Option.isSome_iff_ne_none]

/-- A field that is not given is not wrong. -/
theorem wrongFields_nil (kind : Paginator) : kind.wrongFields [] = [] := by
  cases kind <;> rfl

/-- The refusal of a `page` parameter with fields that are wrong. -/
def fieldRefusal? (kind : Paginator) (page : List (Value × Value)) : Option QueryError :=
  match kind.wrongFields page with
  | [] => none
  | wrong => some (.invalidPage (fieldErrors wrong))

theorem fieldRefusal?_eq_none_iff {kind : Paginator} {page : List (Value × Value)} :
    kind.fieldRefusal? page = none ↔ kind.wrongFields page = [] := by
  unfold fieldRefusal?
  split
  · next hnone => exact iff_of_true rfl hnone
  · next hwrong => exact iff_of_false nofun hwrong

end Paginator

namespace Pagination

/-- **Reading the fields of numbered pages** fails with those that are wrong. -/
theorem errorOf?_pageFields (page : List (Value × Value)) :
    errorOf? (PageFields.read page) = Paginator.page.fieldRefusal? page := by
  unfold PageFields.read Paginator.fieldRefusal? Paginator.wrongFields Paginator.fields
  simp only [PageField.whole, PageField.faultIn?, fieldValue, List.filterMap_cons,
    List.filterMap_nil, invalid_eq]
  generalize blankableField 1 ((Value.lookup? "number" page).getD .null) = number
  generalize blankableField 1 ((Value.lookup? "size" page).getD .null) = size
  generalize blankableField 0 ((Value.lookup? "offset" page).getD .null) = offset
  generalize blankableField 0 ((Value.lookup? "outset" page).getD .null) = outset
  cases number <;> cases size <;> cases offset <;> cases outset <;> rfl

/-- **Reading the fields of pages at a position** fails with those that are wrong. -/
theorem errorOf?_keysetFields (page : List (Value × Value)) :
    errorOf? (KeysetFields.read page) = Paginator.keyset.fieldRefusal? page := by
  unfold KeysetFields.read Paginator.fieldRefusal? Paginator.wrongFields Paginator.fields
  simp only [PageField.faultIn?, fieldValue, List.filterMap_cons, List.filterMap_nil, invalid_eq]
  generalize KeysetFields.textField ((Value.lookup? "column" page).getD .null) = column
  generalize Seek.read (Value.lookup? "direction" page) = seek
  generalize integerField 1 ((Value.lookup? "limit" page).getD .null) = limit
  cases column <;> cases seek <;> cases limit <;> rfl

end Pagination

/-! ## Pagers -/

/-- The refusal of a page after the last one, where the records are counted. -/
def Paginator.rangeRefusal? (kind : Paginator) (settings : Settings) (page : List (Value × Value))
    (records : Nat) : Option QueryError :=
  match kind, PageFields.read page with
  | .page, .ok f =>
    let number := f.number.getD 1
    let last := lastPage records (pageSize settings f)
    if last < number then some (.pageOutOfRange (.int number) (.int last)) else none
  | _, _ => none

/-- The refusal of a text that no link can repeat, where a page has links. -/
def Paginator.linkRefusal? (kind : Paginator) (entries : List (Value × Value)) :
    Option QueryError :=
  match kind with
  | .page | .countless => (looseInLinks? entries).map .unencodable
  | _ => none

namespace Pagination.Pager

variable {p : Pager} {entries : List (Value × Value)} {m : Memory} {matching : List Value}

/-- Fields that cannot be read are noticed first. -/
theorem result_paginate_of_unread {e : QueryError}
    (hkind : p.kind = .page ∨ p.kind = .flat ∨ p.kind = .countless)
    (hentries : p.entries = .ok entries) (hread : PageFields.read (pageEntries entries) = .error e)
    (collection : Selection Memory) : (p.paginate collection).result = .error e := by
  refine Traced.result_bind_of_error ?_ _
  unfold Pager.begin
  rcases hkind with hkind | hkind | hkind
  all_goals
    rw [hkind, hentries]
    have hfields : (Traced.ofExcept (PageFields.read (pageEntries entries))).result = .error e :=
      hread
    refine (Traced.result_bind_of_ok (a := entries) rfl _).trans ?_
    exact Traced.result_bind_of_error (Traced.result_bind_of_error hfields _) _

/-- A flat page is never out of range. -/
theorem exists_result_paginate_of_flat {f : PageFields} (hkind : p.kind = .flat)
    (hentries : p.entries = .ok entries) (hsettings : p.settings.IsTyped)
    (hread : PageFields.read (pageEntries entries) = .ok f) (hmatching : m.matching = .ok matching)
    (hcount : matching.length ≤ 2 ^ 53) :
    ∃ page, (p.paginate (Selection.live m)).result = .ok page := by
  obtain ⟨pages, hpages, -⟩ :=
    pages?_eq_lastPage hsettings (PageFields.bounds_of_read hread) hcount
  have hoffset := PageWindow.offset?_of_integer (PageWindow.isInteger_size (f := f) hsettings)
  have hbegin : ∃ begun, (p.beginFlat entries (Selection.live m)).result = .ok begun := by
    unfold Pager.beginFlat
    rw [Traced.result_bind_of_ok (a := f) hread,
      Traced.result_bind_of_ok (Selection.result_count_live hmatching),
      Traced.result_bind_of_ok (a := pages) (by rw [hpages]; rfl),
      Traced.result_bind_of_ok (a := .whole _) (by rw [hoffset]; rfl)]
    exact ⟨_, rfl⟩
  obtain ⟨⟨details, page⟩, hbegun⟩ := hbegin
  refine ⟨(page, details), ?_⟩
  unfold Pager.paginate Pager.begin
  rw [hkind, hentries]
  refine (Traced.result_bind_of_ok (a := (details, pure page)) ?_ _).trans rfl
  refine (Traced.result_bind_of_ok (a := entries) rfl _).trans ?_
  exact Traced.result_bind_of_ok hbegun _

/-- Numbered pages are refused for their fields first. -/
theorem errorOf?_paginate_of_numbered {later : Option QueryError} {collection : Selection Memory}
    (hkind : p.kind = .page ∨ p.kind = .flat ∨ p.kind = .countless)
    (hentries : p.entries = .ok entries)
    (hread : ∀ f, PageFields.read (pageEntries entries) = .ok f →
      errorOf? (p.paginate collection).result = later) :
    errorOf? (p.paginate collection).result =
      (p.kind.fieldRefusal? (pageEntries entries)).or later := by
  have hfields : p.kind.fieldRefusal? (pageEntries entries) =
      errorOf? (PageFields.read (pageEntries entries)) := by
    rw [errorOf?_pageFields]
    rcases hkind with hkind | hkind | hkind <;> rw [hkind] <;> rfl
  rw [hfields]
  cases hfound : PageFields.read (pageEntries entries) with
  | error e =>
    rw [result_paginate_of_unread hkind hentries hfound]
    rfl
  | ok f => exact hread f hfound

/-- Pages at a position are refused for their fields alone: what follows only describes a query. -/
theorem errorOf?_paginate_of_keyset (hkind : p.kind = .keyset) (hentries : p.entries = .ok entries)
    (m : Memory) : errorOf? (p.paginate (Selection.live m)).result =
      Paginator.keyset.fieldRefusal? (pageEntries entries) := by
  rw [← errorOf?_keysetFields]
  cases hread : KeysetFields.read (pageEntries entries) with
  | error e =>
    refine errorOf?_eq_some.mpr (Traced.result_bind_of_error ?_ _)
    unfold Pager.begin
    rw [hkind, hentries]
    refine Traced.result_bind_of_error (x := Traced.ofExcept (p.keysetInfo entries)) ?_ _
    rw [Traced.result_ofExcept, Pager.keysetInfo, hread]
    rfl
  | ok f =>
    have hinfo : p.keysetInfo entries =
        .ok ⟨f.column, f.position, f.seek, limitOf p.settings f⟩ := by
      rw [Pager.keysetInfo, hread]
      rfl
    refine errorOf?_eq_none.mpr ?_
    rw [result_paginate_of_keyset hkind hentries hinfo]
    unfold keysetRecords
    split
    · exact ⟨_, rfl⟩
    · exact ⟨_, rfl⟩
    · rw [result_seekPage]
      exact ⟨_, rfl⟩

/-- **Why a pager fails**: for the fields of the page, or else for its number, or else for a text
that its links would have to repeat. -/
theorem errorOf?_paginate {records : List Value}
    (hkind : p.kind = .page ∨ p.kind = .flat ∨ p.kind = .countless ∨ p.kind = .keyset)
    (hsettings : p.settings.IsTyped) (hentries : p.entries = .ok entries)
    (hrecords : m.sorted = .ok records) (hcount : records.length ≤ 2 ^ 53) :
    errorOf? (p.paginate (Selection.live m)).result =
      (p.kind.fieldRefusal? (pageEntries entries)).or
        ((p.kind.rangeRefusal? p.settings (pageEntries entries) records.length).or
          (p.kind.linkRefusal? entries)) := by
  rcases hkind with hkind | hkind | hkind | hkind
  · refine errorOf?_paginate_of_numbered (.inl hkind) hentries fun f hread => ?_
    simp only [hkind, Paginator.rangeRefusal?, hread, Paginator.linkRefusal?]
    by_cases hlt : (lastPage records.length (pageSize p.settings f) : Int) < f.number.getD 1
    · rw [result_paginate_of_lastPage_lt hkind hentries hsettings hread hrecords hcount rfl rfl hlt]
      rw [if_pos hlt]
      rfl
    · rw [if_neg hlt, Option.none_or]
      cases hlinks : looseInLinks? entries with
      | none =>
        obtain ⟨page, -, hpage⟩ := result_paginate_of_le_lastPage hkind hentries hsettings hread
          hlinks hrecords hcount rfl rfl (Int.not_lt.mp hlt)
        rw [hpage]
        rfl
      | some text =>
        rw [result_paginate_of_le_lastPage_of_looseInLinks? hkind hentries hsettings hread hlinks
          hrecords hcount rfl rfl (Int.not_lt.mp hlt)]
        rfl
  · refine errorOf?_paginate_of_numbered (.inr (.inl hkind)) hentries fun f hread => ?_
    obtain ⟨matching, hmatching, hperm⟩ := perm_of_sorted hrecords
    obtain ⟨page, hpage⟩ := exists_result_paginate_of_flat hkind hentries hsettings hread hmatching
      (hperm.length_eq ▸ hcount)
    rw [hpage, hkind]
    rfl
  · refine errorOf?_paginate_of_numbered (.inr (.inr hkind)) hentries fun f hread => ?_
    rw [hkind]
    cases hlinks : looseInLinks? entries with
    | none =>
      rw [result_paginate_of_countless hkind hentries hsettings hread hlinks hrecords hcount rfl]
      exact (congrArg (Option.map _) hlinks).symm
    | some text =>
      rw [result_paginate_of_countless_of_looseInLinks? hkind hentries hsettings hread hlinks
        hrecords hcount]
      exact (congrArg (Option.map _) hlinks).symm
  · rw [errorOf?_paginate_of_keyset hkind hentries, hkind]
    exact Option.or_none.symm

end Pagination.Pager

end ResourceQuery
