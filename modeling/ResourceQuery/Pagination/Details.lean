import ResourceQuery.Pagination.Fields
import ResourceQuery.Value.Demand
import ResourceQuery.Value.Quantity

/-!
# Paginators and their details

There are four ways to page a collection. A program may add its own that hands the collection
on and reports fixed details, and one kind is a mere outline that cannot be used. A page reports
about itself its place among the pages and the links to others.

Headlines:
* **`Paginator`**: the ways to page.
* **`Details`**: the report of each kind of paginator.
* **`Details.toValue`**: the report as a map.
* **`responseOptions`**: the part of a report that goes into a response. A report with an entry
  `meta` is split into `meta` and `links`; any other report stands under `meta` as a whole.
-/

namespace ResourceQuery

/-- A way to page a collection. -/
inductive Paginator where
  /-- Numbered pages with a count and links. -/
  | page
  /-- Numbered pages with flat details. -/
  | flat
  /-- Numbered pages without a count. -/
  | countless
  /-- Pages that start at a position in a column. -/
  | keyset
  /-- The outline of a paginator, without a way to page. -/
  | outline
  /-- Hands the collection on and reports the given details. -/
  | custom (details : Value)
deriving Repr

namespace Pagination

/-- Links to pages. A page that is not there, or not known to be, has no link. -/
structure PageLinks where
  self : String
  first : String
  last : Option String
  previous : Option String
  next : Option String
deriving Repr, DecidableEq

/-- How many records there are, and how many pages they fill. -/
structure PageCounts where
  records : Int
  pages : Int
deriving Repr, DecidableEq

/-- The place of a numbered page. -/
structure PageInfo where
  number : Int
  size : Quantity
  /-- The number of leading records skipped on every page. -/
  padding : Int
  /-- The largest size that may be asked for. -/
  largest : Quantity
  /-- The counts, if the records were counted. -/
  counts : Option PageCounts
deriving Repr, DecidableEq

/-- The place of a numbered page in the flat form. -/
structure FlatInfo where
  number : Int
  size : Quantity
  /-- The number of leading records skipped, as it was asked for. -/
  offset : Option Int
  counts : PageCounts
  next : Option Int
  previous : Option Int
deriving Repr, DecidableEq

/-- The parameters of a page that starts at a position. -/
structure KeysetInfo where
  column : Option String
  position : Value
  seek : Seek
  limit : Quantity
deriving Repr

/-- What a page reports about itself. -/
inductive Details where
  | numbered (info : PageInfo) (links : PageLinks)
  | flat (info : FlatInfo)
  | keyset (info : KeysetInfo)
  /-- A report of a program's own. -/
  | custom (report : Value)
deriving Repr

/-- The links as a map. -/
def PageLinks.toValue (l : PageLinks) : Value :=
  let optional (name : String) (link : Option String) : List (String × Value) :=
    (link.map fun url => (name, Value.str url)).toList
  .ofFields <| [("self", .str l.self), ("first", .str l.first)] ++ optional "last" l.last
    ++ optional "prev" l.previous ++ optional "next" l.next

/-- The place of a numbered page as a map. -/
def PageInfo.toValue (p : PageInfo) : Value :=
  let counts :=
    match p.counts with
    | some c => [("total_pages", Value.int c.pages), ("total_count", .int c.records)]
    | none => []
  .ofFields <| [("current_page", .int p.number)] ++ counts
    ++ [("page_size", p.size.toValue), ("padding", .int p.padding),
      ("max_page_size", p.largest.toValue)]

/-- The flat form as a map. -/
def FlatInfo.toValue (p : FlatInfo) : Value :=
  .ofFields [("number", .int p.number), ("size", p.size.toValue), ("offset", .ofOption p.offset),
    ("total", .int p.counts.records), ("total_pages", .int p.counts.pages),
    ("next_page", .ofOption p.next), ("prev_page", .ofOption p.previous)]

/-- The parameters as a map. -/
def KeysetInfo.toValue (p : KeysetInfo) : Value :=
  .ofFields [("column", .ofText p.column), ("position", p.position),
    ("direction", .str p.seek.name), ("limit", p.limit.toValue)]

/-- A report as a map. -/
def Details.toValue : Details → Value
  | .numbered info links => .ofFields [("meta", info.toValue), ("links", links.toValue)]
  | .flat info => info.toValue
  | .keyset info => info.toValue
  | .custom report => report

/-- The last report as a map, empty if there is none. -/
def reportOf (details : Option Details) : Value := (details.map Details.toValue).getD (.map [])

/-- The entries of a report that stand in a response on their own. -/
def isResponseKey (key : Value) : Bool := key.text? == some "meta" || key.text? == some "links"

/-- The part of a report that goes into a response. A report of a program's own may be any value:
where it is asked for `meta` it has to hold something, and where it holds that it has to be a
map. -/
def responseOptions (report : Value) : Except QueryError Value :=
  if !report.isTruthy then .ok (.map [])
  else
    match report.contains? (.str "meta"), report with
    | none, _ => .error .wrongKind
    | some false, report => do return .ofFields [("meta", .map (← report.toEntries))]
    | some true, .map entries => .ok (.map (entries.filter fun e => isResponseKey e.1))
    | some true, report => .error (.lackOf "items" report)

end Pagination

end ResourceQuery
