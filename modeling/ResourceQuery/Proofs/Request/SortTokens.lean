import ResourceQuery.Proofs.Text.Trimming
import ResourceQuery.Request.Tokens

/-!
# The sort parameters that a text can ask for

A sort parameter is written as a token, and tokens are joined with commas. Not every list of
parameters is asked for by some text: a token is never empty, has no comma and no blank ends, and a
dash in front of it always asks for descending order. These are the only bounds, and within them
writing and reading undo each other.

Headlines:
* **`IsToken`**: the texts that are tokens.
* **`tokens_joined`**, **`isToken_of_mem_tokens`**: tokens that are joined are the tokens of a text,
  and a text has no others.
* **`SortParam.HasToken`**: the parameters that a token asks for.
* **`SortParam.parse_serialize`**, **`SortParam.hasToken_parse`**: reading a parameter that is
  written, and what is read.
* **`SortParam.readAll_image`**: which lists of parameters can be read, and that they are read again.
-/

namespace ResourceQuery

open Text Request

/-! ## Tokens -/

/-- A text that can be a token: not empty, without commas and without blank ends. -/
structure IsToken (t : String) : Prop where
  nonempty : t ≠ ""
  noComma : ',' ∉ t.toList
  unpadded : Unpadded isBlankChar t.toList

/-- Texts with commas between them. -/
def commaJoined (ts : List String) : String := ",".intercalate ts

theorem toList_commaJoined (ts : List String) :
    (commaJoined ts).toList = joinWith ',' (ts.map String.toList) := by
  rw [commaJoined, String.toList_intercalate]
  induction ts with
  | nil => rfl
  | cons t rest ih =>
    cases rest with
    | nil => exact List.append_nil _
    | cons second rest =>
      rw [List.map_cons, List.map_cons, List.intercalate_cons_cons, ← List.map_cons, ih,
        List.append_assoc]
      rfl

theorem trim_eq_self {t : String} (h : Unpadded isBlankChar t.toList) : trim t = t := by
  rw [trim, trimWith_eq_self_iff.mpr h, String.ofList_toList]

/-- **The tokens of a text** are its trimmed parts between commas, without empty ones. -/
theorem tokens_eq (s : String) : tokens s = ((split ',' s).map trim).filter (· ≠ "") := by
  have htrim : (segments ',' s.toList).map (trimWith isBlankChar) =
      ((split ',' s).map trim).map String.toList := by
    simp [split, trim, Function.comp_def]
  rw [tokens, htrim]
  induction (split ',' s).map trim with
  | nil => rfl
  | cons t ts ih =>
    rw [List.map_cons, List.filterMap_cons, ih, List.filter_cons]
    by_cases ht : t = ""
    · subst ht
      rfl
    · have hchars : t.toList.isEmpty = false := by
        simpa using fun h => ht (String.toList_eq_nil_iff.mp h)
      simp [hchars, ht]

theorem isToken_of_mem_tokens {s t : String} (h : t ∈ tokens s) : IsToken t := by
  rw [tokens_eq, List.mem_filter, decide_eq_true_eq] at h
  obtain ⟨hmem, hne⟩ := h
  obtain ⟨part, hpart, rfl⟩ := List.mem_map.mp hmem
  rw [split] at hpart
  obtain ⟨piece, hpiece, rfl⟩ := List.mem_map.mp hpart
  have htrim : (trim (String.ofList piece)).toList = trimWith isBlankChar piece := by
    rw [trim, String.toList_ofList, String.toList_ofList]
  obtain ⟨before, after, hpadding, -⟩ := exists_padding isBlankChar piece
  refine ⟨hne, fun hcomma => not_mem_of_mem_segments hpiece ?_, ?_⟩
  · rw [hpadding, List.append_assoc]
    exact List.mem_append_right _ (List.mem_append_left _ (htrim ▸ hcomma))
  · rw [htrim]
    exact unpadded_trimWith isBlankChar piece

theorem split_commaJoined {ts : List String} (hne : ts ≠ []) (h : ∀ t ∈ ts, ',' ∉ t.toList) :
    split ',' (commaJoined ts) = ts := by
  have hpieces : ∀ piece ∈ ts.map String.toList, ',' ∉ piece := List.forall_mem_map.mpr h
  rw [split, toList_commaJoined, segments_joinWith (by simpa using hne) hpieces, List.map_map]
  exact (List.map_congr_left fun t _ => String.ofList_toList).trans (List.map_id _)

/-- **Tokens that are joined** are the tokens of the text. -/
theorem tokens_joined {ts : List String} (h : ∀ t ∈ ts, IsToken t) :
    tokens (commaJoined ts) = ts := by
  by_cases hne : ts = []
  · subst hne
    rfl
  · have htrim : ts.map trim = ts :=
      (List.map_congr_left fun t ht => trim_eq_self (h t ht).unpadded).trans (List.map_id _)
    rw [tokens_eq, split_commaJoined hne fun t ht => (h t ht).noComma, htrim,
      List.filter_eq_self.mpr fun t ht => by simpa using (h t ht).nonempty]

/-! ## Sort parameters -/

namespace SortParam

/-- A parameter that a token asks for: the text that it is written as is one, and an ascending
attribute does not begin with the dash that would make it descending. -/
structure HasToken (p : SortParam) : Prop extends IsToken p.serialize where
  ascending : p.descending = false → ∀ rest, p.name ≠ "-" ++ rest

/-- Parameters written as one text. -/
def spelled (ps : List SortParam) : String := commaJoined (ps.map serialize)

/-- **A token that is read** is written in its trimmed form. -/
theorem serialize_parse (token : String) : (parse token).serialize = trim token :=
  serialize_ofChars _

theorem name_ofChars {cs : List Char} (h : (ofChars cs).descending = false) (rest : String) :
    (ofChars cs).name ≠ "-" ++ rest := by
  unfold ofChars at h ⊢
  split at h
  · cases h
  · next hdash =>
    intro hname
    refine hdash rest.toList ?_
    simpa using congrArg String.toList hname

theorem ofChars_serialize {p : SortParam}
    (h : p.descending = false → ∀ rest, p.name ≠ "-" ++ rest) :
    ofChars p.serialize.toList = p := by
  obtain ⟨name, descending⟩ := p
  cases descending with
  | true => simp [serialize, ofChars]
  | false =>
    unfold ofChars
    split
    · next rest hchars =>
      refine absurd ?_ (h rfl (String.ofList rest))
      rw [← String.toList_inj]
      simpa [serialize] using hchars
    · simp [serialize]

/-- **A parameter that is written** is read again. -/
theorem parse_serialize {p : SortParam} (h : p.HasToken) : parse p.serialize = p := by
  rw [parse, trimWith_eq_self_iff.mpr h.unpadded]
  exact ofChars_serialize h.ascending

/-- **What a token asks for** is a parameter that a token asks for. -/
theorem hasToken_parse {token : String} (h : IsToken token) : (parse token).HasToken where
  toIsToken := by
    rw [serialize_parse, trim_eq_self h.unpadded]
    exact h
  ascending := name_ofChars

theorem readAll_spelled {ps : List SortParam} (h : ∀ p ∈ ps, p.HasToken) :
    readAll (.str (spelled ps)) = .ok ps := by
  have htokens : tokens (spelled ps) = ps.map serialize :=
    tokens_joined (List.forall_mem_map.mpr fun p hp => (h p hp).toIsToken)
  rw [readAll_str, htokens, List.map_map]
  exact congrArg Except.ok
    ((List.map_congr_left fun p hp => parse_serialize (h p hp)).trans (List.map_id _))

theorem hasToken_of_readAll {raw : String} {ps : List SortParam}
    (h : readAll (.str raw) = .ok ps) : ∀ p ∈ ps, p.HasToken := by
  rw [readAll_str] at h
  cases h
  exact List.forall_mem_map.mpr fun token htoken => hasToken_parse (isToken_of_mem_tokens htoken)

/-- **The image of reading.** A list of parameters is what some text asks for exactly if a token asks
for each of them, and it is then read from its tokens with commas between them. What is read from
any text is therefore read again from what it is written as, namely from the trimmed parts of the
text between commas, without empty ones; each token is written in its trimmed form. -/
theorem readAll_image :
    (∀ ps, ((∃ raw, readAll (.str raw) = .ok ps) ↔ ∀ p ∈ ps, p.HasToken) ∧
      ((∀ p ∈ ps, p.HasToken) → readAll (.str (spelled ps)) = .ok ps)) ∧
    (∀ raw, ∃ ps, readAll (.str raw) = .ok ps ∧ readAll (.str (spelled ps)) = .ok ps ∧
      ps.map serialize = ((split ',' raw).map trim).filter (· ≠ "")) ∧
    ∀ token, (parse token).serialize = trim token := by
  refine ⟨fun ps => ⟨⟨?_, fun h => ⟨spelled ps, readAll_spelled h⟩⟩, readAll_spelled⟩, fun raw => ?_,
    serialize_parse⟩
  · rintro ⟨raw, h⟩
    exact hasToken_of_readAll h
  · refine ⟨_, readAll_str raw, readAll_spelled (hasToken_of_readAll (readAll_str raw)), ?_⟩
    rw [← tokens_eq, List.map_map]
    refine (List.map_congr_left fun token htoken => ?_).trans (List.map_id _)
    exact (serialize_parse token).trans (trim_eq_self (isToken_of_mem_tokens htoken).unpadded)

/-- Descending attributes with a dash, of no characters and with a blank in front. -/
def dashedParams : List SortParam := [⟨"-x", true⟩, ⟨"", true⟩, ⟨" name", true⟩, ⟨"a b", false⟩]

/-- One dash is taken off a token, whatever follows it; no token asks for an ascending attribute
with a dash in front. -/
theorem readAll_of_dashes :
    readAll (.str " --x ,-,\t, - name,a b") = .ok dashedParams ∧
      (∀ p ∈ dashedParams, p.HasToken) ∧ spelled dashedParams = "--x,-,- name,a b" ∧
      readAll (.str (spelled dashedParams)) = .ok dashedParams ∧
      ¬ ∃ raw, readAll (.str raw) = .ok [⟨"-x", false⟩] := by
  obtain ⟨hlists, -, -⟩ := readAll_image
  have hcut : tokens " --x ,-,\t, - name,a b" = ["--x", "-", "- name", "a b"] := by cbv
  have hread : readAll (.str " --x ,-,\t, - name,a b") = .ok dashedParams := by
    rw [readAll_str, hcut]
    cbv
  have htokens := (hlists dashedParams).1.mp ⟨_, hread⟩
  have hspelled : spelled dashedParams = "--x,-,- name,a b" := by cbv
  refine ⟨hread, htokens, hspelled, (hlists dashedParams).2 htokens, fun h => ?_⟩
  have htoken := (hlists [⟨"-x", false⟩]).1.mp h _ (List.mem_singleton_self _)
  exact htoken.ascending rfl "x" rfl

end SortParam

end ResourceQuery
