import ResourceQuery.Pagination.Pager
import ResourceQuery.Proofs.Request.EncodableTexts

/-!
# The texts of links

A link repeats the parameters of a request with another page number. The number is always a text of
characters, so one text of the request either stands in the way of every link or of none: a page
has all of its links, or it cannot be reported at all.

Headlines:
* **`entriesAt_entriesAt`**: the parameters behind a link and those behind the next one.
* **`looseInLinks?`**, **`HasLinks`**: what stands in the way of the links of a request.
* **`looseIn?_entriesAt`**: it does not depend on the page.
* **`linkText`**, **`PageLinks.around`**: a link, and the links of a page, where nothing does.
* **`linksOf_of_hasLinks`**, **`linksOf_of_looseInLinks?`**: the links of a page in either case.
* **`hasLinks_of_areEncodable`**: parameters of characters only have links.
-/

namespace ResourceQuery.Pagination

open QueryString

theorem pageEntries_entriesAt (number : Int) (entries : List (Value × Value)) :
    pageEntries (entriesAt number entries) =
      Value.put (.str "number") (.int number) (pageEntries entries) := by
  rw [pageEntries, entriesAt, Value.lookup?_put_self]

/-- Only the last page number that is set counts. -/
theorem entriesAt_entriesAt (number before : Int) (entries : List (Value × Value)) :
    entriesAt number (entriesAt before entries) = entriesAt number entries := by
  rw [entriesAt, pageEntries_entriesAt, Value.put_put, entriesAt, Value.put_put, entriesAt]

/-! ## What stands in the way -/

/-- The first name or text of a request that no link can repeat. -/
def looseInLinks? (entries : List (Value × Value)) : Option LooseText := looseIn? (entriesAt 1 entries)

/-- Can the links of a request be written? -/
def HasLinks (entries : List (Value × Value)) : Prop := looseInLinks? entries = none

/-- **No number stands in the way** of a link. -/
theorem looseIn?_entriesAt (number : Int) (entries : List (Value × Value)) :
    looseIn? (entriesAt number entries) = looseInLinks? entries := by
  have hnumber (parent : List Nat) :
      looseInValue? parent (.int number) = looseInValue? parent (.int 1) :=
    (looseOf?_right parent _).trans (looseOf?_right parent _).symm
  have hpage (parent : List Nat) :
      looseInValue? parent
          (.map (Value.put (.str "number") (.int number) (pageEntries entries))) =
        looseInValue? parent (.map (Value.put (.str "number") (.int 1) (pageEntries entries))) := by
    rw [looseInValue?, looseInValue?]
    exact looseInEntries?_put_congr hnumber parent _
  exact looseInEntries?_put_congr hpage [] entries

/-- The pages of a request have links or not together. -/
theorem looseInLinks?_entriesAt (number : Int) (entries : List (Value × Value)) :
    looseInLinks? (entriesAt number entries) = looseInLinks? entries := by
  rw [looseInLinks?, entriesAt_entriesAt, looseInLinks?]

theorem hasLinks_entriesAt {number : Int} {entries : List (Value × Value)} :
    HasLinks (entriesAt number entries) ↔ HasLinks entries := by
  rw [HasLinks, looseInLinks?_entriesAt, HasLinks]

/-- **Parameters of characters only** have links. -/
theorem hasLinks_of_areEncodable {entries : List (Value × Value)}
    (h : areEncodable entries = true) : HasLinks entries := by
  refine looseIn?_eq_none (areEncodable_put ?_ "page" h)
  rw [Value.isEncodable]
  refine areEncodable_put rfl "number" ?_
  unfold pageEntries
  split
  · next page hpage =>
    have hencodable := isEncodable_of_lookup? h hpage
    rwa [Value.isEncodable] at hencodable
  · rfl

/-! ## Links -/

/-- The text of the link to the page of a number. -/
def linkText (base : Option String) (entries : List (Value × Value)) (number : Int) : String :=
  spell (entriesAt number entries) base

/-- The links of a page if every link has a text. -/
def PageLinks.around (link : Int → String) (number : Int) (last : Option Int) (hasNext : Bool) :
    PageLinks where
  self := link number
  first := link 1
  last := last.map link
  previous := if number > 1 then some (link (number - 1)) else none
  next := if hasNext then some (link (number + 1)) else none

theorem linkTo_of_hasLinks {entries : List (Value × Value)} (h : HasLinks entries)
    (base : Option String) (number : Int) :
    linkTo base entries number = .ok (linkText base entries number) := by
  rw [linkTo, build, looseIn?_entriesAt, h]
  rfl

theorem linkTo_of_looseInLinks? {entries : List (Value × Value)} {text : LooseText}
    (h : looseInLinks? entries = some text) (base : Option String) (number : Int) :
    linkTo base entries number = .error (.unencodable text) := by
  rw [linkTo, build, looseIn?_entriesAt, h]

variable {base : Option String} {entries : List (Value × Value)}

/-- **A page has all of its links** if nothing stands in the way. -/
theorem linksOf_of_hasLinks (h : HasLinks entries) (number : Int) (last : Option Int)
    (hasNext : Bool) : linksOf (linkTo base entries) number last hasNext =
      .ok (.around (linkText base entries) number last hasNext) := by
  have hlink : linkTo base entries = fun number => .ok (linkText base entries number) :=
    funext fun number => linkTo_of_hasLinks h base number
  rw [hlink, linksOf, PageLinks.around]
  by_cases hprevious : number > 1
  · cases last <;> cases hasNext <;> simp [linkIf, hprevious] <;> rfl
  · cases last <;> cases hasNext <;> simp [linkIf, hprevious] <;> rfl

/-- **A page has none of its links** if something does. -/
theorem linksOf_of_looseInLinks? {text : LooseText} (h : looseInLinks? entries = some text)
    (number : Int) (last : Option Int) (hasNext : Bool) :
    linksOf (linkTo base entries) number last hasNext = .error (.unencodable text) := by
  rw [linksOf, linkTo_of_looseInLinks? h]
  rfl

/-- When a page has links, and which. -/
theorem linksOf_eq_ok_iff {number : Int} {last : Option Int} {hasNext : Bool} {links : PageLinks} :
    linksOf (linkTo base entries) number last hasNext = .ok links ↔
      HasLinks entries ∧ links = .around (linkText base entries) number last hasNext := by
  cases h : looseInLinks? entries with
  | none =>
    rw [linksOf_of_hasLinks h]
    constructor
    · rintro ⟨⟩
      exact ⟨h, rfl⟩
    · rintro ⟨-, rfl⟩
      rfl
  | some text =>
    rw [linksOf_of_looseInLinks? h, HasLinks, h]
    constructor
    · rintro ⟨⟩
    · rintro ⟨⟨⟩, -⟩

end ResourceQuery.Pagination
