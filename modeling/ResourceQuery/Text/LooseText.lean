import ResourceQuery.Text.Quoted

/-!
# Texts with surrogates on their own

A text is a sequence of code points. The surrogates, from U+D800 to U+DFFF, stand for half a
character each and are no characters of their own, but a decoded request can hold them one by one.
A `String` cannot, so a text with such a half is kept as its code points. It has no UTF-8 form.

Headlines:
* **`LooseText`**: a text with at least one surrogate on its own.
* **`LooseText.shown`**, **`LooseText.quoted`**: how it shows, and how it shows between quotes.
* **`LooseText.encodingFault`**: the wording of the failure to encode it.
-/

namespace ResourceQuery

open Text

/-- Is a code point half a character? -/
def isSurrogate (point : Nat) : Bool := 0xD800 ≤ point && point ≤ 0xDFFF

/-- A text with surrogates on their own, as its code points. -/
@[ext]
structure LooseText where
  points : List Nat
  inRange : points.all (· < 0x110000) = true
  isLoose : points.any isSurrogate = true
deriving Repr, DecidableEq

/-- The code points of a text. -/
def pointsOf (s : String) : List Nat := s.toList.map Char.toNat

namespace LooseText

/-- The text of code points, if there is a surrogate among them. -/
def ofPoints? (points : List Nat) : Option LooseText :=
  if h : points.all (· < 0x110000) = true ∧ points.any isSurrogate = true then
    some ⟨points, h.1, h.2⟩
  else none

/-- The escape of a surrogate: its four hexadecimal digits. -/
def escape (point : Nat) : List Char := '\\' :: 'u' :: hexDigits point

/-- How the text shows: its surrogates are written as escapes. -/
def shown (t : LooseText) : String :=
  String.ofList (t.points.flatMap fun p => if isSurrogate p then escape p else [Char.ofNat p])

/-- The quoted form of the text. -/
def quoted (t : LooseText) : String :=
  let quote := quoteFor ((t.points.filter (!isSurrogate ·)).map Char.ofNat)
  String.ofList (quote ::
    t.points.flatMap (fun p => if isSurrogate p then escape p else quotedChar quote (Char.ofNat p))
    ++ [quote])

/-- The wording of the failure to encode the text: the first surrogates that stand together, and
where they do. -/
def encodingFault (t : LooseText) : String :=
  let first := t.points.findIdx isSurrogate
  let run := (t.points.drop first).takeWhile isSurrogate
  let place :=
    match run with
    | [p] => "character '" ++ String.ofList (escape p) ++ "' in position " ++ toString first
    | _ =>
      "characters in position " ++ toString first ++ "-" ++ toString (first + run.length - 1)
  "'utf-8' codec can't encode " ++ place ++ ": surrogates not allowed"

/-- Code points without a surrogate among them are those of a `String`. -/
theorem ofPoints?_pointsOf (s : String) : ofPoints? (pointsOf s) = none := by
  refine dif_neg fun h => ?_
  obtain ⟨p, hp, hsurrogate⟩ := List.any_eq_true.mp h.2
  obtain ⟨c, -, rfl⟩ := List.mem_map.mp hp
  simp only [isSurrogate, Bool.and_eq_true, decide_eq_true_eq] at hsurrogate
  have hvalid := c.valid
  simp only [UInt32.isValidChar, Nat.isValidChar] at hvalid
  have hval : c.toNat = c.val.toNat := rfl
  omega

/-- Its surrogates show as escapes. -/
theorem mem_shown (t : LooseText) : '\\' ∈ t.shown.toList := by
  obtain ⟨p, hp, hsurrogate⟩ := List.any_eq_true.mp t.isLoose
  rw [shown, String.toList_ofList, List.mem_flatMap]
  refine ⟨p, hp, ?_⟩
  rw [if_pos hsurrogate]
  exact List.mem_cons_self

end LooseText

end ResourceQuery
