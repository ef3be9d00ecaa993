import ResourceQuery.Proofs.Request.EncodableTexts
import ResourceQuery.Proofs.Text.FormDecoding

/-!
# Reading query strings back

A query string is read back in three steps: the base address is taken off, the encoded pairs are
decoded, and each text is put where the keys of its name lead to. The pairs of any parameters are
found again. Parameters in normal form, whose maps and lists are not empty and whose keys hold no
brackets, are found again as a whole, in their order.

Headlines:
* **`isNormal`**: parameters in normal form.
* **`leaves`**: the texts of a value and the keys that lead to them.
* **`ofPairs`**: parameters from pairs; **`read?`**: parameters from a query string.
* **`pairs?_spell`**: the pairs of any parameters are read back.
* **`build_of_isNormal`**: parameters in normal form can be written.
* **`ofPairs_flatten`**: parameters in normal form are rebuilt from their pairs.
* **`build_injective_on_normal`**: the query string determines the parameters.
-/

namespace ResourceQuery.QueryString

open Text FormEncoding

/-! ## Normal form -/

/-- A key that a name can hold: not empty and without brackets. -/
def isKeyName (name : String) : Bool :=
  name != "" && !name.toList.contains '[' && !name.toList.contains ']'

/-- Is a value a text? -/
def isText : Value → Bool
  | .str _ => true
  | _ => false

mutual

/-- Is a value a text, or a list of texts or a map in normal form that is not empty? -/
def isNormalValue : Value → Bool
  | .str _ => true
  | .list items => !items.isEmpty && items.all isText
  | .map entries => !entries.isEmpty && isNormal entries
  | _ => false

/-- Parameters in normal form: different keys that names can hold, with values in normal form. -/
def isNormal : List (Value × Value) → Bool
  | [] => true
  | (.str name, v) :: rest =>
    isKeyName name && (Value.lookup? name rest).isNone && isNormalValue v && isNormal rest
  | _ :: _ => false

end

/-! ## Reading back -/

/-- The entries of a map, none where there is no map. -/
def entriesOf : Option Value → List (Value × Value)
  | some (.map entries) => entries
  | _ => []

/-- The items of a list, none where there is no list. -/
def itemsOf : Option Value → List Value
  | some (.list items) => items
  | _ => []

/-- Put a text where keys lead to from a value that may be there already. An empty key leads to
the end of a list. -/
def place (text : String) : List String → Option Value → Value
  | [], _ => .str text
  | key :: rest, found =>
    if key = "" then .list (itemsOf found ++ [.str text])
    else
      let entries := entriesOf found
      .map (Value.put (.str key) (place text rest (Value.lookup? key entries)) entries)

/-- Put texts one after the other where their keys lead to. -/
def plant (texts : List (List String × String)) (found : Option Value) : Option Value :=
  texts.foldl (fun found text => some (place text.2 text.1 found)) found

/-- The keys that a name consists of: one up to the first bracket, then one in each pair of
brackets. -/
def keysOf (name : String) : List String :=
  match segments '[' name.toList with
  | [] => []
  | first :: rest => String.ofList first :: rest.map fun segment => String.ofList segment.dropLast

/-- The parameters that pairs stand for. -/
def ofPairs (pairs : List (String × String)) : List (Value × Value) :=
  entriesOf (plant (pairs.map fun pair => (keysOf pair.1, pair.2)) none)

/-- The pairs of the query string behind a base address. -/
def pairs? (base : Option String) (url : String) : Option (List (String × String)) :=
  match url.toList.drop (base.getD "").length with
  | [] => some []
  | _ :: query => decodePairs query

/-- The parameters of the query string behind a base address. -/
def read? (base : Option String) (url : String) : Option (List (Value × Value)) :=
  (pairs? base url).map ofPairs

/-! ## Pairs -/

/-- Without pairs only the base address is left. -/
theorem spell_of_flatten_eq_nil {params : List (Value × Value)} (h : flatten params = [])
    (base : Option String) : spell params base = base.getD "" := by
  unfold spell
  rw [h]
  cases base with
  | none => rfl
  | some base => rfl

/-- Pairs stand behind the base address and one character. -/
theorem exists_toList_spell {params : List (Value × Value)} (h : flatten params ≠ [])
    (base : Option String) :
    ∃ sep, (spell params base).toList =
      (base.getD "").toList ++ sep :: (encodePairs (flatten params)).toList := by
  have hempty : (flatten params).isEmpty = false := by simpa using h
  unfold spell
  cases base with
  | none => exact ⟨'?', by simp [hempty]⟩
  | some base =>
    by_cases hmark : '?' ∈ base.toList
    · exact ⟨'&', by simp [hempty, hmark]⟩
    · exact ⟨'?', by simp [hempty, hmark]⟩

/-- **The pairs of any parameters** are read back. -/
theorem pairs?_spell (params : List (Value × Value)) (base : Option String) :
    pairs? base (spell params base) = some (flatten params) := by
  unfold pairs?
  by_cases h : flatten params = []
  · rw [spell_of_flatten_eq_nil h, ← String.length_toList, List.drop_length, h]
  · obtain ⟨sep, hspell⟩ := exists_toList_spell h base
    rw [hspell, ← String.length_toList, List.drop_left]
    exact decodePairs_encodePairs h

/-! ## Names -/

theorem segments_append {sep : Char} (cs ds : List Char) :
    segments sep (cs ++ sep :: ds) = segments sep cs ++ segments sep ds := by
  induction cs with
  | nil => simp [segments]
  | cons c cs ih =>
    rw [List.cons_append, segments, segments]
    split
    · rw [ih, List.cons_append]
    · rw [ih]
      cases h : segments sep cs with
      | nil => exact absurd h (segments_ne_nil sep cs)
      | cons first rest => rfl

/-- A name and a key inside it. -/
def nested (name key : String) : String := name ++ "[" ++ key ++ "]"

/-- The segments of a name with keys inside it. -/
theorem segments_foldl_nested {keys : List String} (hkeys : ∀ key ∈ keys, '[' ∉ key.toList)
    (name : String) :
    segments '[' (keys.foldl nested name).toList =
      segments '[' name.toList ++ keys.map fun key => key.toList ++ [']'] := by
  induction keys generalizing name with
  | nil => simp
  | cons key rest ih =>
    rw [List.forall_mem_cons] at hkeys
    have hchars : (nested name key).toList = name.toList ++ '[' :: (key.toList ++ [']']) := by
      simp [nested]
    have hclosed : '[' ∉ key.toList ++ [']'] := by simp [hkeys.1]
    rw [List.foldl_cons, ih hkeys.2, hchars, segments_append, segments_of_not_mem hclosed,
      List.map_cons, List.append_assoc]
    rfl

/-- **The keys of a name** are found again. -/
theorem keysOf_foldl_nested {name : String} {keys : List String} (hname : '[' ∉ name.toList)
    (hkeys : ∀ key ∈ keys, '[' ∉ key.toList) :
    keysOf (keys.foldl nested name) = name :: keys := by
  have hkey (key : String) : String.ofList (key.toList ++ [']']).dropLast = key := by simp
  unfold keysOf
  rw [segments_foldl_nested hkeys, segments_of_not_mem hname, List.singleton_append]
  simp only [String.ofList_toList, List.map_map, Function.comp_def, hkey, List.map_id']

/-! ## Leaves -/

mutual

/-- The texts of a value and the keys that lead to them. An empty key leads to an item. -/
def leaves : Value → List (List String × String)
  | .str s => [([], s)]
  | .list items => items.map fun item => ([""], item.plain)
  | .map entries => leavesOfEntries entries
  | _ => []

/-- The texts of the entries of a map and the keys that lead to them. -/
def leavesOfEntries : List (Value × Value) → List (List String × String)
  | [] => []
  | (key, v) :: rest =>
    (leaves v).map (fun leaf => (key.plain :: leaf.1, leaf.2)) ++ leavesOfEntries rest

end

theorem isNormal_cons_iff {key v : Value} {rest : List (Value × Value)} :
    isNormal ((key, v) :: rest) = true ↔ ∃ name, key = .str name ∧ isKeyName name = true ∧
      Value.lookup? name rest = none ∧ isNormalValue v = true ∧ isNormal rest = true := by
  cases key <;> simp [isNormal, and_assoc]

theorem ne_empty_of_isKeyName {name : String} (h : isKeyName name = true) : name ≠ "" := by
  rintro rfl
  exact absurd h (by decide)

theorem not_mem_of_isKeyName {name : String} (h : isKeyName name = true) :
    '[' ∉ name.toList := by
  simp only [isKeyName, Bool.and_eq_true, Bool.not_eq_true', List.contains_eq_mem,
    decide_eq_false_iff_not] at h
  exact h.1.2

theorem nested_ne_empty (name key : String) : nested name key ≠ "" := by
  simp [nested, String.append_eq_empty_iff]

theorem nested_empty (name : String) : nested name "" = name ++ "[]" := by
  unfold nested
  rw [String.append_empty, String.append_assoc]
  rfl

mutual

/-- A value in normal form is written as its leaves, each under its keys. -/
theorem flattenValue_eq {v : Value} (h : isNormalValue v = true) {name : String}
    (hname : name ≠ "") :
    flattenValue name v = (leaves v).map fun leaf => (leaf.1.foldl nested name, leaf.2) := by
  cases v with
  | str s => rfl
  | list items =>
    rw [flattenValue, leaves, List.map_map]
    exact List.map_congr_left fun item _ => congrArg (·, item.plain) (nested_empty name).symm
  | map entries =>
    simp only [isNormalValue, Bool.and_eq_true] at h
    rw [flattenValue, leaves]
    exact flattenEntries_eq h.2 hname
  | _ => cases h

theorem flattenEntries_eq {entries : List (Value × Value)} (h : isNormal entries = true)
    {parent : String} (hparent : parent ≠ "") :
    flattenEntries parent entries =
      (leavesOfEntries entries).map fun leaf => (leaf.1.foldl nested parent, leaf.2) := by
  cases entries with
  | nil => rfl
  | cons e rest =>
    obtain ⟨key, v⟩ := e
    obtain ⟨name, rfl, -, -, hv, hrest⟩ := isNormal_cons_iff.mp h
    have hnested : nestedName parent (.str name) = nested parent name := if_neg hparent
    rw [flattenEntries, leavesOfEntries, hnested, flattenValue_eq hv (nested_ne_empty _ _),
      flattenEntries_eq hrest hparent, List.map_append, List.map_map]
    rfl

end

/-- Parameters in normal form are written as their leaves, each under its keys. -/
theorem flatten_eq {params : List (Value × Value)} (h : isNormal params = true) :
    flatten params = (leavesOfEntries params).map fun leaf =>
      (leaf.1.tail.foldl nested (leaf.1.headD ""), leaf.2) := by
  unfold flatten
  induction params with
  | nil => rfl
  | cons e rest ih =>
    obtain ⟨key, v⟩ := e
    obtain ⟨name, rfl, hname, -, hv, hrest⟩ := isNormal_cons_iff.mp h
    have htop : nestedName "" (.str name) = name := rfl
    rw [flattenEntries, leavesOfEntries, htop, flattenValue_eq hv (ne_empty_of_isKeyName hname),
      ih hrest, List.map_append, List.map_map]
    rfl

mutual

/-- No key that leads to a leaf opens a bracket. -/
theorem not_mem_of_mem_leaves {v : Value} (h : isNormalValue v = true)
    {leaf : List String × String} (hleaf : leaf ∈ leaves v) : ∀ key ∈ leaf.1, '[' ∉ key.toList := by
  cases v with
  | str s =>
    rw [leaves, List.mem_singleton] at hleaf
    rw [hleaf]
    exact nofun
  | list items =>
    rw [leaves, List.mem_map] at hleaf
    obtain ⟨item, -, rfl⟩ := hleaf
    intro key hkey
    rw [List.mem_singleton.mp hkey]
    exact nofun
  | map entries =>
    simp only [isNormalValue, Bool.and_eq_true] at h
    rw [leaves] at hleaf
    exact not_mem_of_mem_leavesOfEntries h.2 hleaf
  | _ => cases h

theorem not_mem_of_mem_leavesOfEntries {entries : List (Value × Value)}
    (h : isNormal entries = true) {leaf : List String × String}
    (hleaf : leaf ∈ leavesOfEntries entries) : ∀ key ∈ leaf.1, '[' ∉ key.toList := by
  cases entries with
  | nil => cases hleaf
  | cons e rest =>
    obtain ⟨key, v⟩ := e
    obtain ⟨name, rfl, hname, -, hv, hrest⟩ := isNormal_cons_iff.mp h
    rw [leavesOfEntries, List.mem_append] at hleaf
    rcases hleaf with hleaf | hleaf
    · obtain ⟨inner, hinner, rfl⟩ := List.mem_map.mp hleaf
      exact List.forall_mem_cons.mpr
        ⟨not_mem_of_isKeyName hname, not_mem_of_mem_leaves hv hinner⟩
    · exact not_mem_of_mem_leavesOfEntries hrest hleaf

end

/-- A leaf of a map lies under a key of the map. -/
theorem ne_nil_of_mem_leavesOfEntries {entries : List (Value × Value)}
    {leaf : List String × String} (hleaf : leaf ∈ leavesOfEntries entries) : leaf.1 ≠ [] := by
  induction entries with
  | nil => cases hleaf
  | cons e rest ih =>
    rw [leavesOfEntries, List.mem_append] at hleaf
    rcases hleaf with hleaf | hleaf
    · obtain ⟨inner, -, rfl⟩ := List.mem_map.mp hleaf
      exact List.cons_ne_nil _ _
    · exact ih hleaf

/-- **The pairs of parameters in normal form** are read as their leaves. -/
theorem map_keysOf_flatten {params : List (Value × Value)} (h : isNormal params = true) :
    (flatten params).map (fun pair => (keysOf pair.1, pair.2)) = leavesOfEntries params := by
  rw [flatten_eq h, List.map_map]
  refine (List.map_congr_left fun leaf hleaf => ?_).trans (List.map_id _)
  obtain ⟨keys, text⟩ := leaf
  have hkeys := not_mem_of_mem_leavesOfEntries h hleaf
  cases keys with
  | nil => exact absurd rfl (ne_nil_of_mem_leavesOfEntries hleaf)
  | cons key rest =>
    rw [List.forall_mem_cons] at hkeys
    exact congrArg (·, text) (keysOf_foldl_nested hkeys.1 hkeys.2)

/-! ## Rebuilding -/

theorem plant_append (xs ys : List (List String × String)) (found : Option Value) :
    plant (xs ++ ys) found = plant ys (plant xs found) :=
  List.foldl_append

/-- Texts below a key of a map change the value under the key. -/
theorem plant_below {key : String} (hkey : key ≠ "") {texts : List (List String × String)}
    {entries : List (Value × Value)} {v w : Value} (h : plant texts (some v) = some w) :
    plant (texts.map fun text => (key :: text.1, text.2))
        (some (.map (Value.put (.str key) v entries))) =
      some (.map (Value.put (.str key) w entries)) := by
  induction texts generalizing v with
  | nil =>
    cases h
    rfl
  | cons text rest ih =>
    have hplace : place text.2 (key :: text.1) (some (.map (Value.put (.str key) v entries))) =
        .map (Value.put (.str key) (place text.2 text.1 (some v)) entries) := by
      rw [place, if_neg hkey]
      simp only [entriesOf, Value.lookup?_put_self, Value.put_put]
    rw [List.map_cons, plant, List.foldl_cons, hplace]
    exact ih h

/-- Texts below a new key of a map add the value that they make up. -/
theorem plant_new {key : String} (hkey : key ≠ "") {texts : List (List String × String)}
    {found : Option Value} {v : Value} (hnew : Value.lookup? key (entriesOf found) = none)
    (h : plant texts none = some v) :
    plant (texts.map fun text => (key :: text.1, text.2)) found =
      some (.map (entriesOf found ++ [(.str key, v)])) := by
  cases texts with
  | nil => cases h
  | cons text rest =>
    have hplace : place text.2 (key :: text.1) found =
        .map (Value.put (.str key) (place text.2 text.1 none) (entriesOf found)) := by
      rw [place, if_neg hkey]
      simp only [hnew]
    rw [List.map_cons, plant, List.foldl_cons, hplace, ← Value.put_of_lookup?_eq_none hnew]
    exact plant_below hkey h

/-- Texts under the empty key are the items of a list. -/
theorem plant_items {items : List Value} (h : items.all isText = true) {found : Option Value}
    (hfound : items = [] → found = some (.list (itemsOf found))) :
    plant (items.map fun item => ([""], item.plain)) found =
      some (.list (itemsOf found ++ items)) := by
  induction items generalizing found with
  | nil =>
    rw [List.append_nil]
    exact hfound rfl
  | cons item rest ih =>
    rw [List.all_cons, Bool.and_eq_true] at h
    cases item with
    | str s =>
      have hrest : plant (rest.map fun item => ([""], item.plain))
          (some (.list (itemsOf found ++ [.str s]))) =
            some (.list (itemsOf found ++ [.str s] ++ rest)) := ih h.2 fun _ => rfl
      rw [List.append_assoc] at hrest
      exact hrest
    | _ => cases h.1

mutual

/-- **A value in normal form** is rebuilt from its leaves. -/
theorem plant_leaves {v : Value} (h : isNormalValue v = true) : plant (leaves v) none = some v := by
  cases v with
  | str s => rfl
  | list items =>
    simp only [isNormalValue, Bool.and_eq_true, Bool.not_eq_true', List.isEmpty_eq_false_iff] at h
    exact plant_items h.2 fun hnil => absurd hnil h.1
  | map entries =>
    simp only [isNormalValue, Bool.and_eq_true, Bool.not_eq_true', List.isEmpty_eq_false_iff] at h
    exact plant_leavesOfEntries h.2 (fun _ _ => rfl) fun hnil => absurd hnil h.1
  | _ => cases h

/-- Entries in normal form are added one after the other. -/
theorem plant_leavesOfEntries {entries : List (Value × Value)} (h : isNormal entries = true)
    {found : Option Value}
    (hnew : ∀ name, Value.lookup? name entries ≠ none →
      Value.lookup? name (entriesOf found) = none)
    (hfound : entries = [] → found = some (.map (entriesOf found))) :
    plant (leavesOfEntries entries) found = some (.map (entriesOf found ++ entries)) := by
  cases entries with
  | nil =>
    rw [List.append_nil]
    exact hfound rfl
  | cons e rest =>
    obtain ⟨key, v⟩ := e
    obtain ⟨name, rfl, hname, hfresh, hv, hrest⟩ := isNormal_cons_iff.mp h
    have hkey : Value.lookup? name (entriesOf found) = none :=
      hnew name (by simp [Value.lookup?, Value.text?])
    have hfirst : plant ((leaves v).map fun leaf => (name :: leaf.1, leaf.2)) found =
        some (.map (entriesOf found ++ [(.str name, v)])) :=
      plant_new (ne_empty_of_isKeyName hname) hkey (plant_leaves hv)
    have hnext : ∀ other, Value.lookup? other rest ≠ none →
        Value.lookup? other (entriesOf (some (.map (entriesOf found ++ [(.str name, v)])))) =
          none := by
      intro other hother
      have hne : other ≠ name := by
        rintro rfl
        exact hother hfresh
      have hbefore : Value.lookup? other (entriesOf found) = none :=
        hnew other (by simpa [Value.lookup?, Value.text?, hne.symm] using hother)
      rw [entriesOf, Value.lookup?_append_of_eq_none hbefore]
      simp [Value.lookup?, Value.text?, hne.symm]
    have hothers := plant_leavesOfEntries hrest hnext fun _ => rfl
    rw [entriesOf, List.append_assoc] at hothers
    rw [leavesOfEntries, plant_append]
    exact (congrArg (plant (leavesOfEntries rest)) hfirst).trans hothers

end

/-- **Parameters in normal form** are rebuilt from their pairs. -/
theorem ofPairs_flatten {params : List (Value × Value)} (h : isNormal params = true) :
    ofPairs (flatten params) = params := by
  unfold ofPairs
  rw [map_keysOf_flatten h]
  by_cases hne : params = []
  · rw [hne]
    rfl
  · rw [plant_leavesOfEntries h (fun _ _ => rfl) fun hnil => absurd hnil hne]
    rfl

mutual

theorem isEncodable_of_isNormalValue {v : Value} (h : isNormalValue v = true) :
    v.isEncodable = true := by
  cases v with
  | str s => rfl
  | list items =>
    simp only [isNormalValue, Bool.and_eq_true, List.all_eq_true] at h
    rw [Value.isEncodable, List.all_eq_true]
    intro item hitem
    have htext := h.2 item hitem
    cases item with
    | str s => rfl
    | _ => cases htext
  | map entries =>
    simp only [isNormalValue, Bool.and_eq_true] at h
    rw [Value.isEncodable]
    exact areEncodable_of_isNormal h.2
  | _ => cases h

theorem areEncodable_of_isNormal {params : List (Value × Value)} (h : isNormal params = true) :
    areEncodable params = true := by
  cases params with
  | nil => rfl
  | cons e rest =>
    obtain ⟨key, v⟩ := e
    obtain ⟨name, rfl, -, -, hv, hrest⟩ := isNormal_cons_iff.mp h
    simp [areEncodable, Value.isLoose, isEncodable_of_isNormalValue hv,
      areEncodable_of_isNormal hrest]

end

/-- **Parameters in normal form** can be written. -/
theorem build_of_isNormal {params : List (Value × Value)} (h : isNormal params = true)
    (base : Option String) : build params base = .ok (spell params base) := by
  rw [build, looseIn?_eq_none (areEncodable_of_isNormal h)]

theorem read?_spell {params : List (Value × Value)} (h : isNormal params = true)
    (base : Option String) : read? base (spell params base) = some params := by
  rw [read?, pairs?_spell, Option.map_some, ofPairs_flatten h]

/-- **The query string determines parameters in normal form**: they have one behind any base
address, and are read back from it in their order, so no others have the same query string. -/
theorem build_injective_on_normal (base : Option String) {p q : List (Value × Value)}
    (hp : isNormal p = true) (hq : isNormal q = true) :
    (∃ url, build p base = .ok url ∧ read? base url = some p) ∧
      (build p base = build q base → p = q) := by
  rw [build_of_isNormal hp, build_of_isNormal hq]
  refine ⟨⟨_, rfl, read?_spell hp base⟩, fun h => ?_⟩
  have hread := read?_spell hq base
  rw [← Except.ok.inj h, read?_spell hp base] at hread
  exact Option.some.inj hread

/-- Texts with separators, brackets and letters beyond ASCII, and a list beside a text. -/
theorem build_injective_on_separators :
    isNormal [(.str "a&b", .map [(.str "é=", .list [.str "[x]+%", .str ""])])] = true ∧
      isNormal [(.str "a&b", .map [(.str "é=", .str "[x]+%")])] = true ∧
      (∃ url,
        build [(.str "a&b", .map [(.str "é=", .list [.str "[x]+%", .str ""])])] none = .ok url ∧
        read? none url = some [(.str "a&b", .map [(.str "é=", .list [.str "[x]+%", .str ""])])]) ∧
      build [(.str "a&b", .map [(.str "é=", .list [.str "[x]+%", .str ""])])] none ≠
        build [(.str "a&b", .map [(.str "é=", .str "[x]+%")])] none := by
  have hp : isNormal [(.str "a&b", .map [(.str "é=", .list [.str "[x]+%", .str ""])])] = true := by
    decide
  have hq : isNormal [(.str "a&b", .map [(.str "é=", .str "[x]+%")])] = true := by decide
  obtain ⟨hread, hinjective⟩ := build_injective_on_normal none hp hq
  refine ⟨hp, hq, hread, fun h => ?_⟩
  simpa using hinjective h

end ResourceQuery.QueryString
