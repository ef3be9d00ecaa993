import ResourceQuery.OrderClause
import ResourceQuery.Text.Blank
import ResourceQuery.Text.Segments
import ResourceQuery.Value.Demand

/-!
# Comma-separated parameters

The `sort` and `include` parameters are lists of tokens with commas between them. Tokens are
trimmed, and blank ones are dropped. A sort token names an attribute; a dash in front asks for
descending order: `-created_at` is `created_at` descending, and `--x` is the attribute `-x`
descending.

Headlines:
* **`Request.tokens`**: the tokens of a text.
* **`Request.tokenList`**: the same for a parameter of any kind; what is empty has no tokens, and
  anything else that is no text is refused.
* **`SortParam.parse`**, **`SortParam.serialize`**: reads a token, and writes it.
* **`SortParam.readAll`**: reads a whole `sort` parameter, keeping the order of its tokens;
  **`SortParam.readAll_str`**: a text is read token by token.
-/

namespace ResourceQuery

namespace Request

open Text

/-- The tokens of a text, trimmed, without blank ones. -/
def tokens (s : String) : List String :=
  ((segments ',' s.toList).map (trimWith isBlankChar)).filterMap fun cs =>
    if cs.isEmpty then none else some (String.ofList cs)

/-- The tokens of a parameter. -/
def tokenList (raw : Value) : Except QueryError (List String) :=
  if !raw.isTruthy then .ok []
  else (raw.textFor "split").map tokens

end Request

open Text Request

/-- An attribute to sort by, as a request asks for it. -/
structure SortParam where
  name : String
  descending : Bool
deriving Repr, DecidableEq

namespace SortParam

/-- Read the characters of a trimmed token. -/
def ofChars : List Char → SortParam
  | '-' :: cs => ⟨String.ofList cs, true⟩
  | cs => ⟨String.ofList cs, false⟩

/-- Read one token. -/
def parse (token : String) : SortParam := ofChars (trimWith isBlankChar token.toList)

/-- The token that asks for this order. -/
def serialize (p : SortParam) : String := if p.descending then "-" ++ p.name else p.name

/-- The direction that is asked for. -/
def direction (p : SortParam) : Direction := if p.descending then .desc else .asc

/-- Read a whole `sort` parameter. -/
def readAll (raw : Value) : Except QueryError (List SortParam) :=
  (tokenList raw).map (List.map parse)

theorem readAll_str (raw : String) : readAll (.str raw) = .ok ((tokens raw).map parse) := by
  unfold readAll tokenList
  split
  · next hempty =>
    have hraw : raw = "" := by simpa [Value.isTruthy] using hempty
    subst hraw
    rfl
  · rfl

/-- A token in its trimmed form is what its parameter is written as. -/
theorem serialize_ofChars (cs : List Char) : (ofChars cs).serialize = String.ofList cs := by
  unfold ofChars
  split
  · simp [serialize]
  · simp [serialize]

end SortParam

end ResourceQuery
