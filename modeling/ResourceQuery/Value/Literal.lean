import ResourceQuery.Number.DecimalText
import ResourceQuery.Text.Quoted
import ResourceQuery.Value.Basic

/-!
# Texts of a value

Two texts of a value. The literal shows what kind of value it is and stands in messages; the
plain text goes into query strings and shows a text as it is.

Headlines:
* **`Value.literal`**: texts quoted, lists in brackets, a tuple of one with a comma after it.
* **`Value.plain`**: the literal, except that a text stands for itself.
-/

namespace ResourceQuery.Value

open Number Text

/-- How the parts of a literal are spelt. -/
structure LiteralStyle where
  null : String
  true : String
  false : String
  emptySet : String
  /-- What stands before the attributes of a record. -/
  record : String
deriving Repr

/-- The spelling of literals in messages. -/
def literalStyle : LiteralStyle := ⟨"None", "True", "False", "set()", "namespace"⟩

/-- Texts with a comma and a space between neighbours. -/
def commaList (parts : List String) : String := ", ".intercalate parts

mutual

/-- The literal of a value. -/
def literal : Value → String
  | .null => literalStyle.null
  | .bool b => if b then literalStyle.true else literalStyle.false
  | .int i => toString i
  | .float x => decimalText plainStyle x
  | .str s => quoted s
  | .direction d => d.literal
  | .loose t => t.quoted
  | .list items => "[" ++ commaList (literals items) ++ "]"
  | .tuple [item] => "(" ++ literal item ++ ",)"
  | .tuple items => "(" ++ commaList (literals items) ++ ")"
  | .set [] => literalStyle.emptySet
  | .set items => "\x7b" ++ commaList (literals items) ++ "\x7d"
  | .map entries => "\x7b" ++ commaList (entryLiterals entries) ++ "\x7d"
  | .record attributes =>
    literalStyle.record ++ "(" ++ commaList (attributeLiterals attributes) ++ ")"

/-- The literals of several values. -/
def literals : List Value → List String
  | [] => []
  | item :: items => literal item :: literals items

/-- The entries of a map, a colon after each key. -/
def entryLiterals : List (Value × Value) → List String
  | [] => []
  | (k, v) :: rest => (literal k ++ ": " ++ literal v) :: entryLiterals rest

/-- The attributes of a record, an equals sign after each name. -/
def attributeLiterals : List (String × Value) → List String
  | [] => []
  | (k, v) :: rest => (k ++ "=" ++ literal v) :: attributeLiterals rest

end

/-- The text of a value in a query string. -/
def plain : Value → String
  | .str s => s
  | .direction d => d.title
  | .loose t => t.shown
  | v => literal v

/-- The code points of the plain text of a value. -/
def points : Value → List Nat
  | .loose t => t.points
  | v => pointsOf v.plain

end ResourceQuery.Value
