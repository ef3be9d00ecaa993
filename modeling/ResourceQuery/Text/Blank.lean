/-!
# Blank characters and trimming

Request parameters are trimmed before they are read. Two sets of characters count as blank:
the wide one that trims parameters, and the White_Space property of Unicode, which leaves out
the four information separators U+001C to U+001F and which may surround a number.

Headlines:
* **`trimWith`**: drops the characters of a class from both ends.
* **`isBlank_iff_trim`**: a text is blank exactly when trimming leaves nothing of it.
-/

namespace ResourceQuery.Text

/-- Code point ranges of the White_Space property, ends included. -/
def whiteSpaceRanges : List (Nat × Nat) :=
  [(0x09, 0x0D), (0x20, 0x20), (0x85, 0x85), (0xA0, 0xA0), (0x1680, 0x1680),
   (0x2000, 0x200A), (0x2028, 0x2029), (0x202F, 0x202F), (0x205F, 0x205F), (0x3000, 0x3000)]

/-- Does the character have the White_Space property? -/
def isWhiteSpace (c : Char) : Bool :=
  whiteSpaceRanges.any fun (lo, hi) => lo ≤ c.toNat && c.toNat ≤ hi

/-- A blank character: White_Space, or an information separator. -/
def isBlankChar (c : Char) : Bool :=
  (0x1C ≤ c.toNat && c.toNat ≤ 0x1F) || isWhiteSpace c

/-- Drop the characters of a class from both ends. -/
def trimWith (p : Char → Bool) (cs : List Char) : List Char :=
  ((cs.dropWhile p).reverse.dropWhile p).reverse

/-- Drop the blank characters at both ends of a text. -/
def trim (s : String) : String := String.ofList (trimWith isBlankChar s.toList)

/-- A text is blank if it has no other characters than blank ones. -/
def isBlank (s : String) : Bool := s.toList.all isBlankChar

private theorem dropWhile_eq_nil {p : Char → Bool} {cs : List Char} :
    cs.dropWhile p = [] ↔ ∀ c ∈ cs, p c = true := by
  induction cs with
  | nil => simp
  | cons c cs ih => by_cases h : p c = true <;> simp [h, ih]

private theorem forall_mem_dropWhile {p : Char → Bool} {cs : List Char}
    (h : ∀ c ∈ cs.dropWhile p, p c = true) : ∀ c ∈ cs, p c = true := by
  induction cs with
  | nil => simp
  | cons c cs ih =>
    by_cases hc : p c = true
    · rw [List.dropWhile_cons, if_pos hc] at h
      simpa [hc] using ih h
    · rw [List.dropWhile_cons, if_neg hc] at h
      exact h

theorem trimWith_eq_nil_iff {p : Char → Bool} {cs : List Char} :
    trimWith p cs = [] ↔ ∀ c ∈ cs, p c = true := by
  rw [trimWith, List.reverse_eq_nil_iff, dropWhile_eq_nil]
  constructor
  · intro h
    exact forall_mem_dropWhile fun c hc => h c (List.mem_reverse.2 hc)
  · intro h c hc
    rw [dropWhile_eq_nil.2 h] at hc
    simp at hc

theorem isBlank_iff_trim {s : String} : isBlank s = true ↔ (trim s).toList = [] := by
  simp [isBlank, trim, trimWith_eq_nil_iff]

end ResourceQuery.Text
