import Mathlib.Data.List.Nodup
import ResourceQuery.Request.IncludeTree

/-!
# The paths of an include parameter

Merging the paths of an include parameter gives a forest that branches where they do: siblings
have different names, and the paths from its roots to its nodes are the beginnings of the paths
that were merged. No such path is there twice.

Headlines:
* **`IncludeTree.paths`**, **`pathsOf`**: the paths of a tree and of a forest.
* **`IncludeTree.Distinct`**: siblings have different names.
* **`IncludeTree.insert_cases`**: everything that adding a tree to a forest does.
* **`IncludeTree.mem_pathsOf_insertAll`**, **`distinctSiblings_insertAll`**: what merging does to
  paths and names.
* **`IncludeTree.nodup_pathsOf`**: no path is there twice.
* **`IncludeTree.mem_pathsOf_forest`**: the paths of a whole parameter.
-/

namespace ResourceQuery.IncludeTree

open Text Request

/-! ## Paths and names -/

mutual

/-- The paths from the root of a tree to its nodes, each ahead of those that go on from it. -/
def paths : IncludeTree → List (List String)
  | .node r cs => [r] :: (pathsOf cs).map (r :: ·)

/-- The paths from the roots of a forest to its nodes. -/
def pathsOf : List IncludeTree → List (List String)
  | [] => []
  | t :: ts => paths t ++ pathsOf ts

end

mutual

/-- Siblings below the root have different names, at every level. -/
def Distinct : IncludeTree → Prop
  | .node _ cs => DistinctSiblings cs

/-- The roots have different names, and so have siblings at every level below them. -/
def DistinctSiblings : List IncludeTree → Prop
  | [] => True
  | t :: ts => (∀ u ∈ ts, t.relationship ≠ u.relationship) ∧ t.Distinct ∧ DistinctSiblings ts

end

theorem pathsOf_append (ts us : List IncludeTree) :
    pathsOf (ts ++ us) = pathsOf ts ++ pathsOf us := by
  induction ts with
  | nil => rfl
  | cons t ts ih => rw [List.cons_append, pathsOf, pathsOf, ih, List.append_assoc]

theorem mem_pathsOf {path : List String} {ts : List IncludeTree} :
    path ∈ pathsOf ts ↔ ∃ t ∈ ts, path ∈ paths t := by
  induction ts with
  | nil => simp [pathsOf]
  | cons t ts ih => simp [pathsOf, ih]

theorem distinctSiblings_iff {ts : List IncludeTree} :
    DistinctSiblings ts ↔
      ts.Pairwise (fun t u => t.relationship ≠ u.relationship) ∧ ∀ t ∈ ts, t.Distinct := by
  induction ts with
  | nil => simp [DistinctSiblings]
  | cons t ts ih =>
    rw [DistinctSiblings, ih, List.pairwise_cons, List.forall_mem_cons]
    tauto

/-! ## Adding a tree -/

/-- The first tree that satisfies a test is changed in its place. -/
theorem modifyFirst_of_any {p : IncludeTree → Bool} {forest : List IncludeTree}
    (h : forest.any p = true) :
    ∃ before t after, forest = before ++ t :: after ∧ p t = true ∧
      ∀ f, modifyFirst p f forest = before ++ f t :: after := by
  induction forest with
  | nil => cases h
  | cons t ts ih =>
    by_cases ht : p t = true
    · exact ⟨[], t, ts, rfl, ht, fun f => by rw [modifyFirst, if_pos ht]; rfl⟩
    · rw [List.any_cons, Bool.or_eq_true] at h
      obtain ⟨before, u, after, rfl, hu, hmodify⟩ := ih (h.resolve_left ht)
      refine ⟨t :: before, u, after, rfl, hu, fun f => ?_⟩
      rw [modifyFirst, if_neg ht, hmodify, List.cons_append]

/-- **Adding a tree** merges its branches into the tree of its name, or puts it at the end if there
is none. -/
theorem insert_cases (r : String) (cs forest : List IncludeTree) :
    (∃ before children after, forest = before ++ .node r children :: after ∧
      insert (.node r cs) forest = before ++ .node r (insertAll cs children) :: after) ∨
    ((∀ t ∈ forest, t.relationship ≠ r) ∧ insert (.node r cs) forest = forest ++ [.node r cs]) := by
  rw [insert]
  by_cases h : forest.any (·.relationship == r) = true
  · obtain ⟨before, ⟨name, children⟩, after, hforest, hname, hmodify⟩ := modifyFirst_of_any h
    obtain rfl : name = r := by simpa [relationship] using hname
    refine .inl ⟨before, children, after, hforest, ?_⟩
    rw [if_pos h, hmodify]
    rfl
  · refine .inr ⟨fun t ht hname => h ?_, if_neg h⟩
    exact List.any_eq_true.mpr ⟨t, ht, by simpa using hname⟩

mutual

theorem mem_pathsOf_insert (t : IncludeTree) (forest : List IncludeTree) (path : List String) :
    path ∈ pathsOf (insert t forest) ↔ path ∈ pathsOf forest ∨ path ∈ paths t := by
  obtain ⟨r, cs⟩ := t
  rcases insert_cases r cs forest with ⟨before, children, after, rfl, h⟩ | ⟨-, h⟩
  · rw [h]
    simp only [pathsOf_append, pathsOf, paths, List.mem_append, List.mem_cons, List.mem_map,
      mem_pathsOf_insertAll cs children, or_and_right, exists_or]
    grind
  · rw [h, pathsOf_append, List.mem_append]
    simp [pathsOf]

/-- **The paths of a merged forest** are those of its parts. -/
theorem mem_pathsOf_insertAll (ts forest : List IncludeTree) (path : List String) :
    path ∈ pathsOf (insertAll ts forest) ↔ path ∈ pathsOf forest ∨ path ∈ pathsOf ts := by
  cases ts with
  | nil => simp [insertAll, pathsOf]
  | cons t ts =>
    rw [insertAll, mem_pathsOf_insertAll ts (insert t forest), mem_pathsOf_insert t forest,
      pathsOf, List.mem_append, or_assoc]

end

mutual

theorem distinctSiblings_insert (t : IncludeTree) (forest : List IncludeTree) (ht : t.Distinct)
    (hforest : DistinctSiblings forest) : DistinctSiblings (insert t forest) := by
  obtain ⟨r, cs⟩ := t
  rw [distinctSiblings_iff] at hforest ⊢
  rcases insert_cases r cs forest with ⟨before, children, after, rfl, h⟩ | ⟨hnew, h⟩
  · obtain ⟨hnames, hbelow⟩ := hforest
    have hmerged : DistinctSiblings (insertAll cs children) :=
      distinctSiblings_insertAll cs children (distinctSiblings_iff.mp ht).2
        (hbelow (.node r children) (by simp))
    rw [h]
    -- merging into a tree leaves its name, so the names of the roots are as before
    refine ⟨?_, ?_⟩
    · simpa [List.pairwise_append, List.pairwise_cons, relationship] using hnames
    · intro u hu
      rcases List.mem_append.mp hu with hu | hu
      · exact hbelow u (List.mem_append_left _ hu)
      · rcases List.mem_cons.mp hu with rfl | hu
        · exact hmerged
        · exact hbelow u (List.mem_append_right _ (List.mem_cons_of_mem _ hu))
  · obtain ⟨hnames, hbelow⟩ := hforest
    rw [h]
    refine ⟨?_, ?_⟩
    · rw [List.pairwise_append]
      refine ⟨hnames, List.pairwise_singleton _ _, fun u hu v hv => ?_⟩
      rw [List.mem_singleton.mp hv]
      exact hnew u hu
    · intro u hu
      rcases List.mem_append.mp hu with hu | hu
      · exact hbelow u hu
      · rw [List.mem_singleton.mp hu]
        exact ht

/-- **Siblings of a merged forest** have different names if those below the roots of its parts
have: the roots themselves may share a name. -/
theorem distinctSiblings_insertAll (ts forest : List IncludeTree) (hts : ∀ t ∈ ts, t.Distinct)
    (hforest : DistinctSiblings forest) : DistinctSiblings (insertAll ts forest) := by
  cases ts with
  | nil => rwa [insertAll]
  | cons t ts =>
    obtain ⟨ht, hts⟩ := List.forall_mem_cons.mp hts
    rw [insertAll]
    exact distinctSiblings_insertAll ts _ hts (distinctSiblings_insert t forest ht hforest)

end

/-! ## Paths without repetition -/

theorem exists_of_mem_paths {t : IncludeTree} {path : List String} (h : path ∈ paths t) :
    ∃ rest, path = t.relationship :: rest := by
  obtain ⟨r, cs⟩ := t
  rcases List.mem_cons.mp h with rfl | h
  · exact ⟨[], rfl⟩
  · obtain ⟨rest, -, rfl⟩ := List.mem_map.mp h
    exact ⟨rest, rfl⟩

theorem ne_nil_of_mem_pathsOf {forest : List IncludeTree} {path : List String}
    (h : path ∈ pathsOf forest) : path ≠ [] := by
  obtain ⟨t, -, h⟩ := mem_pathsOf.mp h
  obtain ⟨rest, rfl⟩ := exists_of_mem_paths h
  exact List.cons_ne_nil _ _

mutual

theorem nodup_paths (t : IncludeTree) (ht : t.Distinct) : (paths t).Nodup := by
  obtain ⟨r, cs⟩ := t
  rw [paths, List.nodup_cons]
  refine ⟨fun h => ?_, (nodup_pathsOf cs ht).map (List.cons_injective (a := r))⟩
  obtain ⟨rest, hrest, heq⟩ := List.mem_map.mp h
  exact ne_nil_of_mem_pathsOf hrest (List.cons_eq_cons.mp heq).2

/-- **No path is there twice** if siblings have different names. -/
theorem nodup_pathsOf (forest : List IncludeTree) (h : DistinctSiblings forest) :
    (pathsOf forest).Nodup := by
  cases forest with
  | nil => exact List.nodup_nil
  | cons t ts =>
    obtain ⟨hnames, ht, hts⟩ := h
    refine (nodup_paths t ht).append (nodup_pathsOf ts hts) fun path hpath hother => ?_
    obtain ⟨rest, rfl⟩ := exists_of_mem_paths hpath
    obtain ⟨u, hu, hother⟩ := mem_pathsOf.mp hother
    obtain ⟨_, heq⟩ := exists_of_mem_paths hother
    exact hnames u hu (List.cons_eq_cons.mp heq).1

end

/-! ## The forest of a parameter -/

/-- A tree without branches has the beginnings of one path. -/
theorem mem_pathsOf_ofChain {names path : List String} :
    path ∈ pathsOf (ofChain names).toList ↔ path ≠ [] ∧ path <+: names := by
  induction names generalizing path with
  | nil => simp [ofChain, pathsOf]
  | cons name rest ih =>
    rw [ofChain, Option.toList_some, pathsOf, pathsOf, List.append_nil, paths, List.mem_cons,
      List.mem_map]
    constructor
    · rintro (rfl | ⟨below, hbelow, rfl⟩)
      · exact ⟨List.cons_ne_nil _ _, by simp⟩
      · exact ⟨List.cons_ne_nil _ _, List.cons_prefix_cons.mpr ⟨rfl, (ih.mp hbelow).2⟩⟩
    · rintro ⟨hne, hbegins⟩
      cases path with
      | nil => exact absurd rfl hne
      | cons first below =>
        obtain ⟨rfl, hbelow⟩ := List.cons_prefix_cons.mp hbegins
        by_cases hnil : below = []
        · exact .inl (by rw [hnil])
        · exact .inr ⟨below, ih.mpr ⟨hnil, hbelow⟩, rfl⟩

theorem distinctSiblings_ofChain (names : List String) :
    DistinctSiblings (ofChain names).toList := by
  induction names with
  | nil => trivial
  | cons name rest ih => exact ⟨nofun, ih, trivial⟩

/-- A path names a relationship, if only one without a name. -/
theorem chainOf_ne_nil (path : String) : chainOf path ≠ [] := by
  simp only [chainOf, ne_eq, List.map_eq_nil_iff]
  split
  · simp
  · simpa using segments_ne_nil '.' _

/-- **A path that is read** is the tree along its names. -/
theorem ofChain_chainOf (path : String) : ofChain (chainOf path) = some (parse path) := by
  unfold parse
  cases h : chainOf path with
  | nil => exact absurd h (chainOf_ne_nil path)
  | cons name rest => rfl

/-- The paths of texts that are read one by one. -/
theorem mem_pathsOf_parse {tokens : List String} {path : List String} :
    path ∈ pathsOf (tokens.map parse) ↔
      path ≠ [] ∧ ∃ token ∈ tokens, path <+: chainOf token := by
  have htoken (token : String) : path ∈ paths (parse token) ↔
      path ≠ [] ∧ path <+: chainOf token := by
    rw [← mem_pathsOf_ofChain, ofChain_chainOf]
    simp [pathsOf]
  simp only [mem_pathsOf, List.mem_map, exists_exists_and_eq_and, htoken]
  tauto

/-- The forest of an `include` parameter. -/
def forest (raw : String) : List IncludeTree := insertAll ((tokens raw).map parse) []

theorem readAll_str (raw : String) : readAll (.str raw) = .ok (forest raw) := by
  unfold readAll tokenList
  by_cases h : raw = ""
  · subst h
    rfl
  · have htruthy : (Value.str raw).isTruthy = true := by simpa [Value.isTruthy] using h
    rw [if_neg (by simp [htruthy])]
    rfl

/-- A text names the load specifications of its forest. -/
theorem specs_of_spelling? {raw : Value} {text : String} (h : raw.spelling? = some text) :
    specs raw = .ok (specsOf (forest text)) := by
  cases raw with
  | str s =>
    cases h
    rw [specs, readAll_str]
    rfl
  | direction d =>
    cases h
    rfl
  | loose t =>
    cases h
    rfl
  | _ => cases h

/-- What names anything to load is a text. -/
theorem exists_spelling?_of_specs {raw : Value} {named : List Value} (h : specs raw = .ok named)
    (hne : named ≠ []) : ∃ text, raw.spelling? = some text := by
  unfold specs readAll tokenList at h
  split at h
  · cases h
    exact absurd rfl hne
  · cases htext : raw.textFor "split" with
    | ok text => exact ⟨text, Value.textFor_eq_ok_iff.mp htext⟩
    | error e =>
      rw [htext] at h
      cases h

/-- **The paths of a parameter** are the beginnings of those that it names. -/
theorem mem_pathsOf_forest {raw : String} {path : List String} :
    path ∈ pathsOf (forest raw) ↔
      path ≠ [] ∧ ∃ token ∈ tokens raw, path <+: chainOf token := by
  rw [forest, mem_pathsOf_insertAll, mem_pathsOf_parse]
  simp [pathsOf]

/-- Siblings of the forest have different names. -/
theorem distinctSiblings_forest (raw : String) : DistinctSiblings (forest raw) := by
  refine distinctSiblings_insertAll _ _ (fun t ht => ?_) trivial
  obtain ⟨token, -, rfl⟩ := List.mem_map.mp ht
  have hchain : DistinctSiblings [parse token] := by
    simpa [ofChain_chainOf] using distinctSiblings_ofChain (chainOf token)
  exact hchain.2.1

/-- A parameter with nothing but blanks between its commas asks for nothing. -/
theorem forest_of_blank {raw : String}
    (h : ∀ piece ∈ Text.split ',' raw, isBlank piece = true) : forest raw = [] := by
  have htokens : tokens raw = [] := by
    rw [tokens, List.filterMap_eq_nil_iff]
    intro cs hcs
    obtain ⟨piece, hpiece, rfl⟩ := List.mem_map.mp hcs
    have hblank := h (String.ofList piece) (List.mem_map.mpr ⟨piece, hpiece, rfl⟩)
    rw [isBlank_iff_trim] at hblank
    rw [if_pos (by simpa [trim] using hblank)]
  rw [forest, htokens]
  rfl

end ResourceQuery.IncludeTree
