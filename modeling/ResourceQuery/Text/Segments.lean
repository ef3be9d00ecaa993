/-!
# Segments of a text

Cutting a text at every occurrence of one character: `a,b,,c` has the segments `a`, `b`, the
empty one and `c`. There is always one more segment than there are separators.

Headlines:
* **`segments_append_cons`**: a separator ends a segment wherever it stands.
* **`joinWith_segments`**: joining the segments gives the text back.
* **`segments_joinWith`**: pieces without the separator are the segments of their join, and
  **`not_mem_of_mem_segments`**: all segments are such pieces.
-/

namespace ResourceQuery.Text

/-- The segments of a text between the occurrences of `sep`. -/
def segments (sep : Char) : List Char → List (List Char)
  | [] => [[]]
  | c :: cs =>
    if c = sep then [] :: segments sep cs
    else
      match segments sep cs with
      | [] => [[c]]
      | first :: rest => (c :: first) :: rest

/-- Join pieces with one separator between neighbours. -/
def joinWith (sep : Char) : List (List Char) → List Char
  | [] => []
  | [piece] => piece
  | piece :: rest => piece ++ sep :: joinWith sep rest

/-- The segments of a string. -/
def split (sep : Char) (s : String) : List String :=
  (segments sep s.toList).map String.ofList

theorem segments_ne_nil (sep : Char) : ∀ cs, segments sep cs ≠ []
  | [] => by simp [segments]
  | c :: cs => by
    unfold segments
    split
    · simp
    · split <;> simp

theorem joinWith_cons {sep : Char} {piece : List Char} {rest : List (List Char)}
    (h : rest ≠ []) : joinWith sep (piece :: rest) = piece ++ sep :: joinWith sep rest := by
  cases rest with
  | nil => exact absurd rfl h
  | cons => rfl

theorem joinWith_segments (sep : Char) (cs : List Char) :
    joinWith sep (segments sep cs) = cs := by
  induction cs with
  | nil => rfl
  | cons c cs ih =>
    unfold segments
    split
    · next h => rw [joinWith_cons (segments_ne_nil sep cs), ih, h]; rfl
    · split
      · next hnil => exact absurd hnil (segments_ne_nil sep cs)
      · next first rest hcons =>
        rw [hcons] at ih
        cases rest with
        | nil => simpa [joinWith] using ih
        | cons second rest =>
          rw [joinWith_cons (by simp)] at ih ⊢
          simpa using ih

/-- The segments on both sides of a separator. -/
theorem segments_append_cons (sep : Char) (before after : List Char) :
    segments sep (before ++ sep :: after) = segments sep before ++ segments sep after := by
  induction before with
  | nil => simp [segments]
  | cons c before ih =>
    by_cases h : c = sep
    · rw [List.cons_append, segments, if_pos h, ih, segments, if_pos h]
      rfl
    · rw [List.cons_append, segments, if_neg h, ih, segments, if_neg h]
      cases hbefore : segments sep before with
      | nil => exact absurd hbefore (segments_ne_nil sep before)
      | cons first rest => rfl

theorem segments_of_not_mem {sep : Char} {piece : List Char} (h : sep ∉ piece) :
    segments sep piece = [piece] := by
  induction piece with
  | nil => rfl
  | cons c piece ih =>
    simp only [List.mem_cons, not_or] at h
    rw [segments, if_neg (Ne.symm h.1), ih h.2]

theorem not_mem_of_mem_segments {sep : Char} :
    ∀ {cs piece : List Char}, piece ∈ segments sep cs → sep ∉ piece
  | [], piece, h => by
    rw [segments, List.mem_singleton] at h
    rw [h]
    exact List.not_mem_nil
  | c :: cs, piece, h => by
    by_cases hc : c = sep
    · rw [segments, if_pos hc, List.mem_cons] at h
      rcases h with rfl | h
      · exact List.not_mem_nil
      · exact not_mem_of_mem_segments h
    · rw [segments, if_neg hc] at h
      split at h
      · next hnil => exact absurd hnil (segments_ne_nil sep cs)
      · next first rest hrest =>
        have hmem : ∀ p ∈ first :: rest, sep ∉ p := fun p hp =>
          not_mem_of_mem_segments (hrest ▸ hp : p ∈ segments sep cs)
        rw [List.forall_mem_cons] at hmem
        rcases List.mem_cons.mp h with rfl | h
        · exact List.not_mem_cons_of_ne_of_not_mem (Ne.symm hc) hmem.1
        · exact hmem.2 piece h

theorem segments_append_sep {sep : Char} {piece : List Char} (h : sep ∉ piece)
    (cs : List Char) : segments sep (piece ++ sep :: cs) = piece :: segments sep cs := by
  rw [segments_append_cons, segments_of_not_mem h]
  rfl

theorem segments_joinWith {sep : Char} {pieces : List (List Char)} (hne : pieces ≠ [])
    (h : ∀ piece ∈ pieces, sep ∉ piece) : segments sep (joinWith sep pieces) = pieces := by
  induction pieces with
  | nil => exact absurd rfl hne
  | cons piece rest ih =>
    cases rest with
    | nil => exact segments_of_not_mem (h piece (by simp))
    | cons second rest =>
      rw [joinWith_cons (by simp), segments_append_sep (h piece (by simp)),
        ih (by simp) fun p hp => h p (List.mem_cons_of_mem _ hp)]

end ResourceQuery.Text
