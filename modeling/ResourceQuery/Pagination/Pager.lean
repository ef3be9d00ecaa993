import ResourceQuery.Pagination.Details
import ResourceQuery.Request.QueryString
import ResourceQuery.Settings
import ResourceQuery.Collection.Basic
import ResourceQuery.Value.Demand

/-!
# Paging a collection

A pager is made for the parameters of one request and pages collections by them. It reports
details with every page and remembers the last ones. Details that are known before the
collection is asked for anything are remembered even if the collection then fails.

Headlines:
* **`Pager.make`**: a pager of a kind; an outline makes none.
* **`PageWindow`**: number, size and padding of a page, and the offset that follows from them.
* **`linksOf`**: the links of a page, which cannot be made if a text of the request has no encoded
  form.
* **`Pager.begin`**: the details of a page, and the way to its records.
* **`Pager.paginate`**: details and records together.

Out of scope: numbers that are too long to be written in a link. A decoded request holds none, so
only a text without an encoded form is in the way of a link. The number of a next page is not read
but reckoned, and is checked where no count bounds it (`ensureWritable`).
-/

namespace ResourceQuery.Pagination

open Number

/-- A paginator with the request that it serves. -/
structure Pager where
  kind : Paginator
  /-- The parameters of the request, which links repeat. -/
  params : Value
  settings : Settings
  /-- The address that links start with. -/
  base : Option String

namespace Pager

/-- Make a pager. -/
def make (kind : Paginator) (params : Value) (settings : Settings) (base : Option String) :
    Except QueryError Pager :=
  match kind with
  | .outline => .error .wrongKind
  | kind => .ok ⟨kind, params, settings, base⟩

/-- The parameters of the request. What counts for no holds none. -/
def entries (p : Pager) : Except QueryError (List (Value × Value)) :=
  if p.params.isTruthy then p.params.entriesFor "get" else .ok []

end Pager

/-- The entries of the `page` parameter; one that is no map has none. -/
def pageEntries (entries : List (Value × Value)) : List (Value × Value) :=
  match Value.lookup? "page" entries with
  | some (.map page) => page
  | _ => []

/-! ## Numbered pages -/

/-- The place of a numbered page. -/
structure PageWindow where
  number : Int
  size : Quantity
  padding : Int
deriving Repr, DecidableEq

namespace PageWindow

/-- The page that is asked for; its size is capped. -/
def ofFields (settings : Settings) (f : PageFields) : PageWindow where
  number := f.number.getD 1
  size := ((f.size.map .whole).getD settings.defaultPageSize).smaller settings.maxPageSize
  padding := f.padding

/-- The number of records before the page, nothing if it is out of the range of doubles. -/
def offset? (w : PageWindow) : Option Quantity := do (← w.size.scale? (w.number - 1)).shift? w.padding

end PageWindow

/-- A number that has to be in the range of doubles. -/
def inRange {α : Type} : Option α → Except QueryError α
  | some a => .ok a
  | none => .error .tooLarge

/-! ## Links -/

/-- The parameters of a request with another page number, as a link to that page repeats them. -/
def entriesAt (number : Int) (entries : List (Value × Value)) : List (Value × Value) :=
  let page := Value.put (.str "number") (.int number) (pageEntries entries)
  Value.put (.str "page") (.map page) entries

/-- The link to the page of a number. -/
def linkTo (base : Option String) (entries : List (Value × Value)) (number : Int) :
    Except QueryError String :=
  QueryString.build (entriesAt number entries) base

/-- The link to the page of a number if there is such a page. -/
def linkIf (link : Int → Except QueryError String) (isThere : Bool) (number : Int) :
    Except QueryError (Option String) :=
  if isThere then (link number).map some else .ok none

/-- The links of a page. `last` is the number of the last page if it is known. -/
def linksOf (link : Int → Except QueryError String) (number : Int) (last : Option Int)
    (hasNext : Bool) : Except QueryError PageLinks := do
  return {
    self := ← link number
    first := ← link 1
    last := ← last.mapM link
    previous := ← linkIf link (number > 1) (number - 1)
    next := ← linkIf link hasNext (number + 1)
  }

variable {C : Type} [Collection C]

/-- The records of a window. -/
def window (offset size : Quantity) (collection : C) : Traced C := do
  Collection.perform (.limit size.toValue) (← Collection.perform (.offset offset.toValue) collection)

/-- The first rows, as many as a page holds. A double counts no rows. -/
def firstRows (size : Quantity) (rows : List Value) : Except QueryError (List Value) :=
  match size with
  | .whole i => .ok (rows.take i.toNat)
  | .truth b => .ok (rows.take (Quantity.ofTruth b).toNat)
  | .real _ => .error .wrongKind

namespace Pager

/-- Numbered pages with a count. A page after the last one is refused. -/
def beginPage (p : Pager) (entries : List (Value × Value)) (collection : C) :
    Traced (Details × C) := do
  let w := PageWindow.ofFields p.settings (← Traced.ofExcept (PageFields.read (pageEntries entries)))
  let records ← Collection.count collection
  let last := max 1 (← Traced.ofExcept (inRange (w.size.pages? records)))
  if w.number > last then Traced.fail (.pageOutOfRange (.int w.number) (.int last))
  else
    let offset ← Traced.ofExcept (inRange w.offset?)
    Traced.log (.pagingNumbered w.number last offset.truncate w.size.truncate)
    let page ← window offset w.size collection
    let info : PageInfo :=
      ⟨w.number, w.size, w.padding, p.settings.maxPageSize, some ⟨records, last⟩⟩
    let links ←
      Traced.ofExcept (linksOf (linkTo p.base entries) w.number (some last) (w.number < last))
    return (.numbered info links, page)

/-- Numbered pages in the flat form. A page after the last one is empty. -/
def beginFlat (p : Pager) (entries : List (Value × Value)) (collection : C) :
    Traced (Details × C) := do
  let fields ← Traced.ofExcept (PageFields.read (pageEntries entries))
  let w := PageWindow.ofFields p.settings fields
  let records ← Collection.count collection
  let pages ← Traced.ofExcept (inRange (w.size.pages? records))
  let page ← window (← Traced.ofExcept (inRange w.offset?)) w.size collection
  return (.flat {
    number := w.number
    size := w.size
    offset := fields.skipped?
    counts := ⟨records, pages⟩
    next := if w.number < pages then some (w.number + 1) else none
    previous := if w.number > 1 then some (w.number - 1) else none
  }, page)

/-- The number of a next page has to be one that a link can hold. -/
def ensureWritable (number : Int) : Except QueryError Unit :=
  if isWritable number then .ok () else .error (.invalidValue (.tooManyDigits none))

/-- Numbered pages without a count. One record more than the page holds is fetched to see
whether there is a next page. The rows of the page come after its details. -/
def beginCountless (p : Pager) (entries : List (Value × Value)) (collection : C) :
    Traced (Details × Traced (List Value)) := do
  let w := PageWindow.ofFields p.settings (← Traced.ofExcept (PageFields.read (pageEntries entries)))
  let offset ← Traced.ofExcept (inRange w.offset?)
  Traced.log (.pagingCountless w.number offset.truncate w.size.truncate)
  let opened ← Collection.perform (.offset offset.toValue) collection
  let size ← Traced.ofExcept (inRange (w.size.shift? 1))
  let rows ← Collection.all (← Collection.perform (.limit size.toValue) opened)
  let hasNext := w.size.isBelow (.whole rows.length)
  let links ← Traced.ofExcept (linksOf (linkTo p.base entries) w.number none hasNext)
  if hasNext then Traced.ofExcept (ensureWritable (w.number + 1))
  let info : PageInfo := ⟨w.number, w.size, w.padding, p.settings.maxPageSize, none⟩
  return (.numbered info links, Traced.ofExcept (firstRows w.size rows))

/-- The order along a column in which the records beyond a position come first. -/
def seekDirection : Seek → Direction
  | .after => .asc
  | .before => .desc

/-- The name of the comparison with the position. -/
def seekOperator : Seek → String
  | .after => "gt"
  | .before => "lt"

/-- Is a position to start at given? -/
def isPosition : Value → Bool
  | .null => false
  | .str s => s != ""
  | _ => true

/-- The records beyond a position in a column, nearest first. -/
def seekPage (column : String) (k : KeysetInfo) (collection : C) : Traced C := do
  let ordered ← Collection.perform (.reorderClauses [⟨column, seekDirection k.seek⟩]) collection
  let beyond ←
    if isPosition k.position then
      Collection.perform (.compare (.str column) (.str (seekOperator k.seek)) k.position) ordered
    else pure ordered
  Traced.log (.pagingKeyset column k.seek.name k.position)
  Collection.perform (.limit k.limit.toValue) beyond

/-- The way to the records of a page that starts at a position. Without a column it is the
collection itself. -/
def keysetRecords (k : KeysetInfo) (collection : C) : Traced C :=
  match k.column with
  | none | some "" => pure collection
  | some column => seekPage column k collection

/-- The details of a page that starts at a position. -/
def keysetInfo (p : Pager) (entries : List (Value × Value)) : Except QueryError KeysetInfo := do
  let f ← KeysetFields.read (pageEntries entries)
  return ⟨f.column, f.position, f.seek,
    (f.limit.map .whole).getD p.settings.defaultKeysetLimit⟩

/-- The details of a page, which the pager remembers from then on, and the way to its
records. -/
def begin (p : Pager) (collection : Selection C) :
    Traced (Details × Traced (Selection C)) :=
  match p.kind with
  | .outline => .fail .wrongKind
  | .custom report => return (.custom report, pure collection)
  | .keyset => do
    let k ← Traced.ofExcept (do p.keysetInfo (← p.entries))
    return (.keyset k, keysetRecords k collection)
  | .page => do
    let (details, page) ← p.beginPage (← Traced.ofExcept p.entries) collection
    return (details, pure page)
  | .flat => do
    let (details, page) ← p.beginFlat (← Traced.ofExcept p.entries) collection
    return (details, pure page)
  | .countless => do
    let (details, rows) ← p.beginCountless (← Traced.ofExcept p.entries) collection
    return (details, do return .ofRows (← rows))

/-- The details that a pager remembers once it has begun a page: those of the page if it came so
far, else those it remembered before. -/
def remembered {α : Type} (before : Option Details) (begun : Traced (Details × α)) :
    Option Details :=
  match begun.result with
  | .ok (details, _) => some details
  | .error _ => before

/-- The records of a page and its details. -/
def paginate (p : Pager) (collection : Selection C) : Traced (Selection C × Details) := do
  let (details, records) ← p.begin collection
  return (← records, details)

end Pager

end ResourceQuery.Pagination
