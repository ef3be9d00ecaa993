import ResourceQuery.Text.FormEncoding
import ResourceQuery.Text.Segments

/-!
# Form decoding

The reader of form encoded pairs. An escape stands for a byte, a plus sign for a space and every
other character for itself; the bytes together are the UTF-8 form of a text. Encoded texts hold
neither an ampersand nor an equals sign, so the separators between them are found again.

Headlines:
* **`decodeBytes`**, **`decode`**: the bytes and the text that an encoded text stands for.
* **`decode_encode`**: an encoded text is decoded to the text.
* **`decodePairs`**: the pairs of a query string.
* **`decodePairs_encodePairs`**: encoded pairs are decoded to the pairs.
-/

namespace ResourceQuery.Text.FormEncoding

/-! ## Bytes -/

/-- The value of an upper case hexadecimal digit. -/
def hexValue (c : Char) : Option Nat :=
  if '0' ≤ c && c ≤ '9' then some (c.toNat - '0'.toNat)
  else if 'A' ≤ c && c ≤ 'F' then some (c.toNat - 'A'.toNat + 10)
  else none

/-- The bytes that an encoded text stands for. -/
def decodeBytes : List Char → Option (List UInt8)
  | [] => some []
  | '+' :: cs => (decodeBytes cs).map (0x20 :: ·)
  | '%' :: high :: low :: cs => do
    return (16 * (← hexValue high) + (← hexValue low)).toUInt8 :: (← decodeBytes cs)
  | c :: cs => if isKept c then (decodeBytes cs).map (c.toNat.toUInt8 :: ·) else none

theorem hexValue_hexDigit {n : Nat} (h : n < 16) : hexValue (hexDigit n) = some n := by
  have hall : ∀ i : Fin 16, hexValue (hexDigit i) = some i.val := by decide
  exact hall ⟨n, h⟩

/-- The escape of a byte is read as the byte. -/
theorem decodeBytes_escapeByte (b : UInt8) (cs : List Char) :
    decodeBytes (escapeByte b ++ cs) = (decodeBytes cs).map (b :: ·) := by
  have hb : b.toNat < 256 := b.toNat_lt
  have hvalue : (16 * (b.toNat / 16) + b.toNat % 16).toUInt8 = b := by
    rw [Nat.div_add_mod]
    exact UInt8.ofNat_toNat
  show decodeBytes ('%' :: hexDigit (b.toNat / 16) :: hexDigit (b.toNat % 16) :: cs) = _
  rw [decodeBytes, hexValue_hexDigit (by omega), hexValue_hexDigit (by omega)]
  cases decodeBytes cs with
  | none => rfl
  | some bs => exact congrArg (fun x => some (x :: bs)) hvalue

theorem decodeBytes_escapeBytes (bs : List UInt8) (cs : List Char) :
    decodeBytes (bs.flatMap escapeByte ++ cs) = (decodeBytes cs).map (bs ++ ·) := by
  induction bs with
  | nil => simp
  | cons b bs ih =>
    rw [List.flatMap_cons, List.append_assoc, decodeBytes_escapeByte, ih, Option.map_map]
    rfl

theorem toNat_of_isAlphanum {c : Char} (h : c.isAlphanum = true) : c.toNat < 128 := by
  have hclasses : (decide (c.val ≥ 'A'.val ∧ c.val ≤ 'Z'.val) ||
      decide (c.val ≥ 'a'.val) && decide (c.val ≤ 'z'.val) ||
      decide (c.val ≥ '0'.val) && decide (c.val ≤ '9'.val)) = true := h
  simp only [Bool.or_eq_true, Bool.and_eq_true, decide_eq_true_eq, UInt32.le_iff_toNat_le,
    ge_iff_le] at hclasses
  have hupper : 'Z'.val.toNat = 90 := rfl
  have hlower : 'z'.val.toNat = 122 := rfl
  have hdigit : '9'.val.toNat = 57 := rfl
  have hc : c.toNat = c.val.toNat := rfl
  omega

theorem toNat_of_isKept {c : Char} (h : isKept c = true) : c.toNat < 128 := by
  simp only [isKept, Bool.or_eq_true, decide_eq_true_eq] at h
  rcases h with (((((h | rfl) | rfl) | rfl) | rfl) | rfl) | rfl
  · exact toNat_of_isAlphanum h
  all_goals decide

/-- A character that stands for itself is a single byte. -/
theorem utf8EncodeChar_of_isKept {c : Char} (h : isKept c = true) :
    String.utf8EncodeChar c = [c.toNat.toUInt8] := by
  have hlt := toNat_of_isKept h
  have hsize : c.utf8Size = 1 := Char.utf8Size_eq_one_iff.mpr (UInt32.le_iff_toNat_le.mpr
    (show c.toNat ≤ 127 by omega))
  rw [String.utf8EncodeChar_eq_singleton hsize]
  rfl

/-- **An encoded character** is read as the bytes of the character. -/
theorem decodeBytes_encodeChar (c : Char) (cs : List Char) :
    decodeBytes (encodeChar c ++ cs) =
      (decodeBytes cs).map (String.utf8EncodeChar c ++ ·) := by
  unfold encodeChar
  split
  · next hspace =>
    subst hspace
    rfl
  · split
    · next hkept =>
      have hplus : c ≠ '+' := by
        rintro rfl
        exact absurd hkept (by decide)
      have hpercent : c ≠ '%' := by
        rintro rfl
        exact absurd hkept (by decide)
      rw [List.singleton_append, decodeBytes, if_pos hkept, utf8EncodeChar_of_isKept hkept]
      · rfl
      · exact hplus
      · intro high low rest heq
        exact absurd heq hpercent
    · exact decodeBytes_escapeBytes _ cs

theorem decodeBytes_encode (cs : List Char) :
    decodeBytes (encode cs) = some (cs.flatMap String.utf8EncodeChar) := by
  unfold encode
  induction cs with
  | nil => rfl
  | cons c cs ih =>
    rw [List.flatMap_cons, decodeBytes_encodeChar, ih]
    rfl

/-! ## Texts -/

/-- The text that an encoded text stands for. -/
def decode (cs : List Char) : Option (List Char) := do
  return (← (← decodeBytes cs).toByteArray.utf8Decode?).toList

/-- **An encoded text is decoded** to the text. -/
theorem decode_encode (cs : List Char) : decode (encode cs) = some cs := by
  have hbytes : (cs.flatMap String.utf8EncodeChar).toByteArray = cs.utf8Encode := rfl
  simp [decode, decodeBytes_encode, hbytes]

theorem isKept_hexDigit {n : Nat} (h : n < 16) : isKept (hexDigit n) = true := by
  have hall : ∀ i : Fin 16, isKept (hexDigit i) = true := by decide
  exact hall ⟨n, h⟩

/-- The characters of an encoded text. -/
theorem mem_encode {d : Char} {cs : List Char} (h : d ∈ encode cs) :
    isKept d = true ∨ d = '+' ∨ d = '%' := by
  obtain ⟨c, -, hd⟩ := List.mem_flatMap.mp h
  unfold encodeChar at hd
  split at hd
  · exact Or.inr (Or.inl (List.mem_singleton.mp hd))
  · split at hd
    · next hkept =>
      rw [List.mem_singleton.mp hd]
      exact Or.inl hkept
    · obtain ⟨b, -, hd⟩ := List.mem_flatMap.mp hd
      have hb : b.toNat < 256 := b.toNat_lt
      rcases List.mem_cons.mp hd with rfl | hd
      · exact Or.inr (Or.inr rfl)
      · have hdigit : d = hexDigit (b.toNat / 16) ∨ d = hexDigit (b.toNat % 16) := by
          simpa using hd
        rcases hdigit with rfl | rfl
        · exact Or.inl (isKept_hexDigit (by omega))
        · exact Or.inl (isKept_hexDigit (by omega))

theorem not_mem_encode {sep : Char} (hsep : sep = '&' ∨ sep = '=') (cs : List Char) :
    sep ∉ encode cs := by
  intro h
  rcases hsep with rfl | rfl
  · exact absurd (mem_encode h) (by decide)
  · exact absurd (mem_encode h) (by decide)

/-! ## Pairs -/

/-- The name and the value on both sides of an equals sign. -/
def decodePair (cs : List Char) : Option (String × String) :=
  match segments '=' cs with
  | [name, value] => do return (String.ofList (← decode name), String.ofList (← decode value))
  | _ => none

/-- The pairs of a query string, with an ampersand between neighbours. -/
def decodePairs (cs : List Char) : Option (List (String × String)) :=
  (segments '&' cs).mapM decodePair

theorem decodePair_encodePair (pair : String × String) :
    decodePair (encodePair pair) = some pair := by
  have hsegments : segments '=' (encodePair pair) =
      [encode pair.1.toList, encode pair.2.toList] := by
    unfold encodePair
    rw [segments_append_sep (not_mem_encode (Or.inr rfl) _),
      segments_of_not_mem (not_mem_encode (Or.inr rfl) _)]
  unfold decodePair
  rw [hsegments]
  simp only [decode_encode, bind, Option.bind_some, String.ofList_toList]
  rfl

theorem not_mem_encodePair (pair : String × String) : '&' ∉ encodePair pair := by
  have hname : '&' ∉ encode pair.1.toList := not_mem_encode (Or.inl rfl) _
  have hvalue : '&' ∉ encode pair.2.toList := not_mem_encode (Or.inl rfl) _
  simp [encodePair, hname, hvalue]

theorem encodePairChars_eq_joinWith (pairs : List (String × String)) :
    encodePairChars pairs = joinWith '&' (pairs.map encodePair) := by
  induction pairs with
  | nil => rfl
  | cons pair rest ih =>
    cases rest with
    | nil => rfl
    | cons next rest =>
      have hne : (next :: rest).map encodePair ≠ [] := by simp
      rw [List.map_cons, joinWith_cons hne, ← ih]
      rfl

theorem mapM_decodePair (pairs : List (String × String)) :
    (pairs.map encodePair).mapM decodePair = some pairs := by
  induction pairs with
  | nil => rfl
  | cons pair rest ih =>
    rw [List.map_cons, List.mapM_cons, decodePair_encodePair, ih]
    rfl

/-- **Encoded pairs are decoded** to the pairs. -/
theorem decodePairs_encodePairs {pairs : List (String × String)} (h : pairs ≠ []) :
    decodePairs (encodePairs pairs).toList = some pairs := by
  have hsep : ∀ piece ∈ pairs.map encodePair, '&' ∉ piece := by
    intro piece hpiece
    obtain ⟨pair, -, rfl⟩ := List.mem_map.mp hpiece
    exact not_mem_encodePair pair
  rw [encodePairs, String.toList_ofList, encodePairChars_eq_joinWith, decodePairs,
    segments_joinWith (by simpa using h) hsep, mapM_decodePair]

end ResourceQuery.Text.FormEncoding
