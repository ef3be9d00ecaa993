import Mathlib.Data.List.Basic
import ResourceQuery.Proofs.Number.IntegerText
import ResourceQuery.Proofs.Request.QueryDecoding

/-!
# Names of pairs

The pairs of a parameter stand under its name, or under a name that goes on with a bracket. A name
that consists of a map and a plain key of it therefore belongs to that key of that map alone, and
its text can be looked up among the pairs of all parameters.

Headlines:
* **`eq_str_of_isWord`**: only a text is written as a word of small letters.
* **`name_of_mem_flattenValue`**, **`name_of_mem_flattenEntries`**: the names of pairs.
* **`lookup_flattenEntries`**: the text under a key of a map.
* **`lookup_flatten`**: the text under a key of a map among all parameters.
-/

namespace ResourceQuery

open Number Text

/-! ## Values that are written as words -/

namespace Value

/-- A letter from `a` to `z`. -/
def isSmallLetter (c : Char) : Bool := 97 ≤ c.toNat && c.toNat ≤ 122

/-- Does a text consist of small letters? -/
def isWord (s : String) : Bool := s.toList.all isSmallLetter

theorem not_isWord_of_mem {s : String} {c : Char} (hc : c ∈ s.toList)
    (h : isSmallLetter c = false) : isWord s = false :=
  List.all_eq_false.mpr ⟨c, hc, by simp [h]⟩

theorem not_isWord_toString (i : Int) : isWord (toString i) = false := by
  obtain ⟨c, hc⟩ := List.exists_mem_of_ne_nil _ (Nat.toDigits_ne_nil (b := 10) (n := i.natAbs))
  obtain ⟨-, hhigh⟩ := toNat_of_isDigit (Nat.isDigit_of_mem_toDigits (by decide) (by decide) hc)
  refine not_isWord_of_mem (c := c) ?_ ?_
  · rw [toList_toString]
    exact List.mem_append_right _ hc
  · rw [isSmallLetter, decide_eq_false (by omega), Bool.false_and]

theorem mem_positionalText (style : DecimalStyle) (hpoint : '.' ∈ style.wholeTail)
    (digits : List Char) (point : Int) : '.' ∈ positionalText style digits point := by
  unfold positionalText
  split
  · simp
  · simp only
    split
    · exact List.mem_append_right _ hpoint
    · simp

theorem mem_exponentText (style : DecimalStyle) (digits : List Char) (point : Int) :
    ∃ sign ∈ exponentText style digits point, sign = '-' ∨ sign = '+' := by
  refine ⟨if point - 1 < 0 then '-' else '+', ?_, ?_⟩
  · unfold exponentText
    simp
  · split
    · exact Or.inl rfl
    · exact Or.inr rfl

/-- A finite double is written with a point or a sign. -/
theorem not_isWord_decimalText (negative : Bool) (m : Nat) (e : Int) :
    isWord (decimalText plainStyle (.finite negative m e)) = false := by
  have hbody {body : List Char} (h : ∃ c ∈ body, isSmallLetter c = false) :
      isWord (String.ofList (if negative then '-' :: body else body)) = false := by
    obtain ⟨c, hc, hletter⟩ := h
    refine not_isWord_of_mem (c := c) ?_ hletter
    rw [String.toList_ofList]
    split
    · exact List.mem_cons_of_mem _ hc
    · exact hc
  unfold decimalText
  refine hbody ?_
  by_cases hzero : m = 0
  · rw [if_pos hzero]
    exact ⟨'0', List.mem_cons_self, by decide⟩
  · rw [if_neg hzero]
    show ∃ c ∈ (if plainStyle.pointAfter < (shortestDigits m e).2 &&
        (shortestDigits m e).2 ≤ plainStyle.pointUpTo then
          positionalText plainStyle (shortestDigits m e).1 (shortestDigits m e).2
        else exponentText plainStyle (shortestDigits m e).1 (shortestDigits m e).2), _
    generalize shortestDigits m e = written
    obtain ⟨digits, point⟩ := written
    by_cases hplace : (plainStyle.pointAfter < point && point ≤ plainStyle.pointUpTo) = true
    · rw [if_pos hplace]
      exact ⟨'.', mem_positionalText plainStyle (by simp [plainStyle]) digits point, by decide⟩
    · rw [if_neg hplace]
      obtain ⟨sign, hsign, rfl | rfl⟩ := mem_exponentText plainStyle digits point
      · exact ⟨'-', hsign, by decide⟩
      · exact ⟨'+', hsign, by decide⟩

/-- **Only a text is written as a word**, apart from the two doubles that are no numbers. -/
theorem eq_str_of_isWord {v : Value} (h : isWord v.plain = true) (hnan : v.plain ≠ "nan")
    (hinf : v.plain ≠ "inf") : v = .str v.plain := by
  have hnot {c : Char} (hc : c ∈ v.plain.toList) (hletter : isSmallLetter c = false) :
      v = .str v.plain := by
    rw [not_isWord_of_mem hc hletter] at h
    cases h
  cases v with
  | null => exact hnot (c := 'N') (by decide) (by decide)
  | bool b =>
    cases b with
    | true => exact hnot (c := 'T') (by decide) (by decide)
    | false => exact hnot (c := 'F') (by decide) (by decide)
  | int i =>
    have hint : (Value.int i).plain = toString i := rfl
    rw [hint, not_isWord_toString] at h
    cases h
  | float x =>
    cases x with
    | nan => exact absurd rfl hnan
    | infinite negative =>
      cases negative with
      | true => exact hnot (c := '-') (by decide) (by decide)
      | false => exact absurd rfl hinf
    | finite negative m e =>
      have hfloat : (Value.float (.finite negative m e)).plain =
          decimalText plainStyle (.finite negative m e) := by simp only [plain, literal]
      rw [hfloat, not_isWord_decimalText] at h
      cases h
  | str s => rfl
  | direction d =>
    cases d with
    | asc => exact hnot (c := '.') (by decide) (by decide)
    | desc => exact hnot (c := '.') (by decide) (by decide)
  | loose t => exact hnot (c := '\\') t.mem_shown (by decide)
  | list items => exact hnot (c := '[') (by simp [plain, literal]) (by decide)
  | tuple items =>
    refine hnot (c := '(') ?_ (by decide)
    cases items with
    | nil => simp [plain, literal]
    | cons item rest =>
      cases rest with
      | nil => simp [plain, literal]
      | cons second rest => simp [plain, literal]
  | set items =>
    cases items with
    | nil => exact hnot (c := '(') (by decide) (by decide)
    | cons item rest => exact hnot (c := '}') (by simp [plain, literal]) (by decide)
  | map entries => exact hnot (c := '}') (by simp [plain, literal]) (by decide)
  | record attributes => exact hnot (c := '(') (by simp [plain, literal]) (by decide)

end Value

namespace QueryString

/-! ## Names -/

theorem nestedName_eq_nested {parent : String} (h : parent ≠ "") (key : Value) :
    nestedName parent key = nested parent key.plain :=
  if_neg h

/-- Is a text the rest of a name: nothing, or keys in brackets? -/
def IsNameRest (cs : List Char) : Prop := cs = [] ∨ cs.head? = some '['

mutual

/-- **The pairs of a parameter** stand under its name, or under keys inside it. -/
theorem name_of_mem_flattenValue {v : Value} {name : String} (hname : name ≠ "")
    {pair : String × String} (h : pair ∈ flattenValue name v) :
    ∃ rest, pair.1.toList = name.toList ++ rest ∧ IsNameRest rest := by
  cases v with
  | null => cases h
  | map entries =>
    rw [flattenValue] at h
    obtain ⟨key, -, rest, heq, -⟩ := name_of_mem_flattenEntries hname h
    exact ⟨_, heq, Or.inr rfl⟩
  | list items | tuple items =>
    rw [flattenValue] at h
    obtain ⟨item, -, rfl⟩ := List.mem_map.mp h
    exact ⟨['[', ']'], by simp, Or.inr rfl⟩
  | _ =>
    rw [flattenValue, List.mem_singleton] at h
    · exact ⟨[], by rw [h, List.append_nil], Or.inl rfl⟩
    all_goals simp

/-- **The pairs of a map** stand under its keys, in brackets behind its name. -/
theorem name_of_mem_flattenEntries {entries : List (Value × Value)} {parent : String}
    (hparent : parent ≠ "") {pair : String × String} (h : pair ∈ flattenEntries parent entries) :
    ∃ e ∈ entries, ∃ rest,
      pair.1.toList = parent.toList ++ '[' :: (e.1.plain.toList ++ ']' :: rest) ∧
      IsNameRest rest := by
  cases entries with
  | nil => cases h
  | cons e rest =>
    obtain ⟨key, v⟩ := e
    rw [flattenEntries, List.mem_append] at h
    rcases h with h | h
    · rw [nestedName_eq_nested hparent] at h
      obtain ⟨more, heq, hmore⟩ := name_of_mem_flattenValue (nested_ne_empty _ _) h
      refine ⟨(key, v), List.mem_cons_self, more, ?_, hmore⟩
      rw [heq]
      simp [nested]
    · obtain ⟨e, he, hrest⟩ := name_of_mem_flattenEntries hparent h
      exact ⟨e, List.mem_cons_of_mem _ he, hrest⟩

end

/-! ## Looking texts up -/

/-- A key that no other value is written as, and no direction counts as. -/
def isPlainKey (key : String) : Bool :=
  Value.isWord key && !(["nan", "inf", "asc", "desc"].contains key)

theorem eq_str_of_plain {key : String} (h : isPlainKey key = true) {v : Value}
    (hv : v.plain = key) : v = .str key := by
  subst hv
  simp only [isPlainKey, Bool.and_eq_true, Bool.not_eq_true', List.contains_eq_mem,
    decide_eq_false_iff_not, List.mem_cons, not_or] at h
  exact Value.eq_str_of_isWord h.1 h.2.1 h.2.2.1

theorem text?_eq_some_iff {key : String} (h : isPlainKey key = true) {v : Value} :
    v.text? = some key ↔ v = .str key := by
  constructor
  · intro hv
    cases v with
    | str s => rw [Option.some.inj hv]
    | direction d =>
      cases Option.some.inj hv
      cases d with
      | asc => exact absurd h (by decide)
      | desc => exact absurd h (by decide)
    | _ => cases hv
  · rintro rfl
    rfl

/-- A plain key is found where it stands. -/
theorem lookup?_of_mem {key : String} (h : isPlainKey key = true)
    {entries : List (Value × Value)} (hdistinct : entries.Pairwise fun a b => a.1 ≠ b.1)
    {v : Value} (hmem : (.str key, v) ∈ entries) : Value.lookup? key entries = some v := by
  induction entries with
  | nil => cases hmem
  | cons e rest ih =>
    obtain ⟨k, w⟩ := e
    rw [List.pairwise_cons] at hdistinct
    rcases List.mem_cons.mp hmem with heq | hrest
    · cases heq
      simp [Value.lookup?, Value.text?]
    · have hk : k.text? ≠ some key := fun htext =>
        hdistinct.1 _ hrest ((text?_eq_some_iff h).mp htext)
      rw [Value.lookup?, if_neg hk, ih hdistinct.2 hrest]

theorem not_mem_of_isPlainKey {key : String} (h : isPlainKey key = true) {c : Char}
    (hc : Value.isSmallLetter c = false) : c ∉ key.toList := by
  intro hmem
  rw [isPlainKey, Value.not_isWord_of_mem hmem hc] at h
  cases h

theorem lookup_eq_none_of_forall_ne {pairs : List (String × String)} {name : String}
    (h : ∀ pair ∈ pairs, pair.1 ≠ name) : pairs.lookup name = none :=
  List.lookup_eq_none_iff.mpr fun pair hpair => by simpa using (h pair hpair).symm

/-- Is a value written as one text? -/
def isSingle : Value → Bool
  | .map _ | .list _ | .tuple _ => false
  | _ => true

/-- The text that a value is written as. The absent value is not written. -/
def textOf? (v : Value) : Option String := if v.isNull then none else some v.plain

theorem flattenValue_of_isSingle {v : Value} (h : isSingle v = true) (name : String) :
    flattenValue name v = (textOf? v).toList.map fun text => (name, text) := by
  cases v with
  | map entries => cases h
  | list items => cases h
  | tuple items => cases h
  | _ => rfl

section

variable {parent key : String} (hkey : isPlainKey key = true)
include hkey

/-- A name that consists of a map and a key belongs to that key of the map alone. -/
theorem key_of_name_eq {v : Value} {rest : List Char} {name : String}
    (hname : name.toList = parent.toList ++ '[' :: (v.plain.toList ++ ']' :: rest))
    (heq : name = nested parent key) : v = .str key := by
  have hclosed : ']' ∉ key.toList := not_mem_of_isPlainKey hkey (by decide)
  have hchars : v.plain.toList ++ ']' :: rest = key.toList ++ ']' :: [] := by
    rw [heq] at hname
    simpa [nested] using hname.symm
  have hplain := ((List.append_cons_inj_of_notMem hclosed (by simp)).mp hchars.symm).1
  exact eq_str_of_plain hkey (String.toList_injective hplain.symm)

/-- **The text under a key of a map** stands among the pairs of the map. -/
theorem lookup_flattenEntries (hne : parent ≠ "") {entries : List (Value × Value)}
    (hdistinct : entries.Pairwise fun a b => a.1 ≠ b.1)
    (hsingle : ∀ v, Value.lookup? key entries = some v → isSingle v = true) :
    (flattenEntries parent entries).lookup (nested parent key) =
      (Value.lookup? key entries).bind textOf? := by
  induction entries with
  | nil => rfl
  | cons e rest ih =>
    obtain ⟨k, v⟩ := e
    rw [List.pairwise_cons] at hdistinct
    rw [flattenEntries, List.lookup_append, nestedName_eq_nested hne]
    by_cases hk : k = .str key
    · subst hk
      have hfound : Value.lookup? key ((.str key, v) :: rest) = some v := by
        simp [Value.lookup?, Value.text?]
      have hothers : (flattenEntries parent rest).lookup (nested parent key) = none := by
        refine lookup_eq_none_of_forall_ne fun pair hpair heq => ?_
        obtain ⟨e, he, more, hname, -⟩ := name_of_mem_flattenEntries hne hpair
        exact hdistinct.1 e he (key_of_name_eq hkey hname heq).symm
      rw [hothers, hfound, flattenValue_of_isSingle (hsingle v hfound), Option.or_none,
        Option.bind_some]
      cases textOf? v with
      | none => rfl
      | some text => simp [Value.plain]
    · have hskip : Value.lookup? key ((k, v) :: rest) = Value.lookup? key rest :=
        if_neg fun htext => hk ((text?_eq_some_iff hkey).mp htext)
      have hhere : (flattenValue (nested parent k.plain) v).lookup (nested parent key) = none := by
        refine lookup_eq_none_of_forall_ne fun pair hpair heq => ?_
        obtain ⟨more, hname, -⟩ := name_of_mem_flattenValue (nested_ne_empty _ _) hpair
        have hchars : pair.1.toList = parent.toList ++ '[' :: (k.plain.toList ++ ']' :: more) := by
          rw [hname]
          simp [nested]
        exact hk (key_of_name_eq hkey hchars heq)
      rw [hhere, hskip, Option.none_or]
      exact ih hdistinct.2 fun w hw => hsingle w (hskip.trans hw)

/-- **The text under a key of a map among all parameters** stands among the pairs of the map, as
long as no other parameter has an empty name or one that starts like a name inside the map. -/
theorem lookup_flatten (hparent : isPlainKey parent = true) {entries : List (Value × Value)}
    (hdistinct : entries.Pairwise fun a b => a.1 ≠ b.1)
    (hothers : ∀ e ∈ entries, e.1 ≠ .str parent →
      e.1.plain ≠ "" ∧ ¬ (parent ++ "[").toList <+: e.1.plain.toList) :
    (flatten entries).lookup (nested parent key) =
      (Value.lookup? parent entries).bind fun v =>
        (flattenValue parent v).lookup (nested parent key) := by
  unfold flatten
  have hother {k v : Value} (hk : k ≠ .str parent)
      (hplain : k.plain ≠ "" ∧ ¬ (parent ++ "[").toList <+: k.plain.toList) :
      (flattenValue k.plain v).lookup (nested parent key) = none := by
    refine lookup_eq_none_of_forall_ne fun pair hpair heq => ?_
    obtain ⟨more, hname, hmore⟩ := name_of_mem_flattenValue hplain.1 hpair
    rw [heq] at hname
    rcases hmore with rfl | hmore
    · refine hplain.2 ⟨key.toList ++ [']'], ?_⟩
      simpa [nested] using hname
    · obtain ⟨tail, rfl⟩ := List.head?_eq_some_iff.mp hmore
      have hopen : '[' ∉ parent.toList := not_mem_of_isPlainKey hparent (by decide)
      have hrest : '[' ∉ key.toList ++ [']'] := by
        simp [not_mem_of_isPlainKey hkey (show Value.isSmallLetter '[' = false by decide)]
      have hchars : k.plain.toList ++ '[' :: tail =
          parent.toList ++ '[' :: (key.toList ++ [']']) := by
        simpa [nested] using hname.symm
      have heq' := ((List.append_cons_inj_of_notMem hopen hrest).mp hchars.symm).1
      exact hk (eq_str_of_plain hparent (String.toList_injective heq'.symm))
  induction entries with
  | nil => rfl
  | cons e rest ih =>
    obtain ⟨k, v⟩ := e
    rw [List.pairwise_cons] at hdistinct
    rw [List.forall_mem_cons] at hothers
    have htop : nestedName "" k = k.plain := if_pos rfl
    rw [flattenEntries, List.lookup_append, htop, ih hdistinct.2 hothers.2]
    by_cases hk : k = .str parent
    · subst hk
      have hnone : Value.lookup? parent rest = none := Value.lookup?_eq_none fun e he htext =>
        hdistinct.1 e he ((text?_eq_some_iff hparent).mp htext).symm
      have hfound : Value.lookup? parent ((.str parent, v) :: rest) = some v := by
        simp [Value.lookup?, Value.text?]
      rw [hnone, hfound, Option.bind_none, Option.or_none]
      rfl
    · have hskip : Value.lookup? parent ((k, v) :: rest) = Value.lookup? parent rest :=
        if_neg fun htext => hk ((text?_eq_some_iff hparent).mp htext)
      rw [hother hk (hothers.1 hk), hskip, Option.none_or]

end

end QueryString

end ResourceQuery
