import ResourceQuery.Proofs.Sql.LoadedPaths
import ResourceQuery.Proofs.Value.Lookup

/-!
# Load specifications are read back

A load specification is a name for a tree without branches, a map to the specification of an only
branch, and a map to the list of those of several. These shapes never meet, at no depth, so from
a specification its tree can be told, with the order of its branches.

Headlines:
* **`IncludeTree.ofSpec?`**: the tree that a value specifies.
* **`IncludeTree.ofSpec?_eq_some_iff`**: a tree is read from the values that equal its
  specification, and from no others.
* **`IncludeTree.spec_shapes`**: the shape of a specification tells how many branches there are.
* **`IncludeTree.pathsOf_injective`**: the paths of a forest tell which forest it is.
* **`IncludeTree.spec_faithful`**: what a specification keeps of its tree.
-/

namespace ResourceQuery

/-! ## Values that equal a map or a list -/

namespace Value

theorem same_list_iff (v : Value) (items : List Value) :
    same v (.list items) = true ↔ ∃ own, v = .list own ∧ sameItems own items = true := by
  cases v <;> simp [same, sameScalar, text?, sameNumber, number?]

theorem same_entry_iff (v key below : Value) :
    same v (.map [(key, below)]) = true ↔
      ∃ k w, v = .map [(k, w)] ∧ same k key = true ∧ same w below = true := by
  cases v with
  | map entries =>
    match entries with
    | [] => simp [same]
    | [(k, w)] => simp [same, entriesAmong]
    | _ :: _ :: _ => simp [same]
  | _ => simp [same, sameScalar, text?, sameNumber, number?]

end Value

namespace IncludeTree

open Sql

/-! ## Reading a specification -/

mutual

/-- The tree that a value specifies. A text has no branches. In a map, a list stands for several
branches and anything else for a single one. -/
def ofSpec? : Value → Option IncludeTree
  | .map [(key, .list items)] => do
    let r ← key.text?
    let cs ← ofSpecs? items
    if 2 ≤ cs.length then some (.node r cs) else none
  | .map [(key, below)] => do return .node (← key.text?) [← ofSpec? below]
  | v => v.text?.map fun r => .node r []

/-- The trees that the values of a list specify. -/
def ofSpecs? : List Value → Option (List IncludeTree)
  | [] => some []
  | v :: vs => do return (← ofSpec? v) :: (← ofSpecs? vs)

end

variable {r : String} {cs : List IncludeTree} {v : Value}

theorem ofSpec?_list (items : List Value) : ofSpec? (.list items) = none := by
  simp [ofSpec?, Value.text?]

/-- **The three shapes** from which a tree is read. -/
theorem ofSpec?_eq_node_iff :
    ofSpec? v = some (.node r cs) ↔
      (cs = [] ∧ v.text? = some r) ∨
      (∃ key below t, cs = [t] ∧ v = .map [(key, below)] ∧ key.text? = some r ∧
        ofSpec? below = some t) ∨
      ∃ key items, 2 ≤ cs.length ∧ v = .map [(key, .list items)] ∧ key.text? = some r ∧
        ofSpecs? items = some cs := by
  rw [ofSpec?.eq_def]
  split
  · next key items =>
    constructor
    · intro h
      obtain ⟨name, hname, h⟩ := Option.bind_eq_some_iff.mp h
      obtain ⟨branches, hbranches, h⟩ := Option.bind_eq_some_iff.mp h
      split at h
      · next hseveral =>
        cases h
        exact .inr (.inr ⟨key, items, hseveral, rfl, hname, hbranches⟩)
      · cases h
    · rintro (⟨-, htext⟩ | ⟨_, _, t, -, h, -, hbelow⟩ | ⟨_, _, hseveral, h, hname, hbranches⟩)
      · cases htext
      · cases h
        rw [ofSpec?_list] at hbelow
        cases hbelow
      · cases h
        simp [hname, hbranches, hseveral]
  · next key below hlist =>
    constructor
    · intro h
      obtain ⟨name, hname, h⟩ := Option.bind_eq_some_iff.mp h
      obtain ⟨t, ht, h⟩ := Option.bind_eq_some_iff.mp h
      cases h
      exact .inr (.inl ⟨key, below, t, rfl, rfl, hname, ht⟩)
    · rintro (⟨-, htext⟩ | ⟨_, _, t, rfl, h, hname, ht⟩ | ⟨_, items, -, h, -, -⟩)
      · cases htext
      · cases h
        simp [hname, ht]
      · cases h
        exact absurd rfl (hlist items)
  · next hseveral honly =>
    constructor
    · intro h
      obtain ⟨name, hname, h⟩ := Option.map_eq_some_iff.mp h
      cases h
      exact .inl ⟨rfl, hname⟩
    · rintro (⟨rfl, htext⟩ | ⟨key, below, _, -, h, -, -⟩ | ⟨key, items, -, h, -, -⟩)
      · rw [htext]
        rfl
      · exact absurd h (honly key below)
      · exact absurd h (hseveral key items)

theorem ofSpecs?_cons_eq_some_iff {vs : List Value} {ts : List IncludeTree} :
    ofSpecs? (v :: vs) = some ts ↔
      ∃ t us, ofSpec? v = some t ∧ ofSpecs? vs = some us ∧ ts = t :: us := by
  rw [ofSpecs?]
  constructor
  · intro h
    obtain ⟨t, ht, h⟩ := Option.bind_eq_some_iff.mp h
    obtain ⟨us, hus, h⟩ := Option.bind_eq_some_iff.mp h
    cases h
    exact ⟨t, us, ht, hus, rfl⟩
  · rintro ⟨t, us, ht, hus, rfl⟩
    simp [ht, hus]

/-- The specification of a tree with several branches. -/
theorem spec_several (r : String) (t u : IncludeTree) (ts : List IncludeTree) :
    spec (.node r (t :: u :: ts)) = .map [(.str r, .list (specsOf (t :: u :: ts)))] := rfl

mutual

/-- **A tree is read** from the values that equal its specification, and from no others. -/
theorem ofSpec?_eq_some_iff (t : IncludeTree) (v : Value) :
    ofSpec? v = some t ↔ v.same (spec t) = true := by
  match t with
  | .node r [] =>
    rw [ofSpec?_eq_node_iff, spec, Value.same_str_iff]
    simp
  | .node r [t] =>
    rw [ofSpec?_eq_node_iff, spec, Value.same_entry_iff]
    simp [Value.same_str_iff, ofSpec?_eq_some_iff t]
  | .node r (t :: u :: ts) =>
    rw [ofSpec?_eq_node_iff, spec_several, Value.same_entry_iff]
    simp [Value.same_str_iff, Value.same_list_iff, ofSpecs?_eq_some_iff (t :: u :: ts)]

theorem ofSpecs?_eq_some_iff (ts : List IncludeTree) (vs : List Value) :
    ofSpecs? vs = some ts ↔ Value.sameItems vs (specsOf ts) = true := by
  match ts, vs with
  | [], [] => simp [ofSpecs?, specsOf, Value.sameItems]
  | [], v :: vs => simp [ofSpecs?_cons_eq_some_iff, specsOf, Value.sameItems]
  | t :: ts, [] => simp [ofSpecs?, specsOf, Value.sameItems]
  | t :: ts, v :: vs =>
    simp [ofSpecs?_cons_eq_some_iff, specsOf, Value.sameItems, ← ofSpec?_eq_some_iff t,
      ← ofSpecs?_eq_some_iff ts]

end

mutual

theorem ofSpec?_spec (t : IncludeTree) : ofSpec? (spec t) = some t := by
  match t with
  | .node r [] => exact ofSpec?_eq_node_iff.mpr (.inl ⟨rfl, rfl⟩)
  | .node r [t] =>
    exact ofSpec?_eq_node_iff.mpr (.inr (.inl ⟨_, _, t, rfl, rfl, rfl, ofSpec?_spec t⟩))
  | .node r (t :: u :: ts) =>
    have hseveral : 2 ≤ (t :: u :: ts).length := by simp
    exact ofSpec?_eq_node_iff.mpr
      (.inr (.inr ⟨_, _, hseveral, rfl, rfl, ofSpecs?_specsOf (t :: u :: ts)⟩))

/-- What is written is read back. -/
theorem ofSpecs?_specsOf (ts : List IncludeTree) : ofSpecs? (specsOf ts) = some ts := by
  match ts with
  | [] => rfl
  | t :: ts =>
    exact ofSpecs?_cons_eq_some_iff.mpr ⟨t, ts, ofSpec?_spec t, ofSpecs?_specsOf ts, rfl⟩

end

/-- Only specifications of the same tree are equal values. -/
theorem same_spec_iff (t u : IncludeTree) : (spec t).same (spec u) = true ↔ t = u := by
  rw [← ofSpec?_eq_some_iff, ofSpec?_spec, Option.some.injEq]

/-! ## Shapes -/

/-- What stands under the name of an only branch is no list. -/
theorem spec_ne_list (t : IncludeTree) (items : List Value) : spec t ≠ .list items := by
  intro h
  have hread := ofSpec?_spec t
  rw [h, ofSpec?_list] at hread
  cases hread

/-- **The shape of a specification** tells whether its tree has no branch, one or several. -/
theorem spec_shapes (t : IncludeTree) :
    ((∃ name, spec t = .str name) ↔ t.children.length = 0) ∧
    ((∃ key below, spec t = .map [(key, below)] ∧ ∀ items, below ≠ .list items) ↔
      t.children.length = 1) ∧
    ((∃ key items, spec t = .map [(key, .list items)]) ↔ 2 ≤ t.children.length) := by
  match t with
  | .node r [] => simp [spec, children]
  | .node r [t] => simp [spec, children, spec_ne_list]
  | .node r (t :: u :: ts) => simp [spec_several, children]

/-! ## Paths -/

/-- Below a root go the paths that are longer than it, up to the next root. -/
theorem below_and_after (r : String) (cs ts : List IncludeTree) :
    ((pathsOf cs).map (r :: ·) ++ pathsOf ts).takeWhile (1 < ·.length) =
        (pathsOf cs).map (r :: ·) ∧
      ((pathsOf cs).map (r :: ·) ++ pathsOf ts).dropWhile (1 < ·.length) = pathsOf ts := by
  have hbelow : ∀ path ∈ (pathsOf cs).map (r :: ·), decide (1 < path.length) = true := by
    intro path hpath
    obtain ⟨rest, hrest, rfl⟩ := List.mem_map.mp hpath
    have hpos := List.length_pos_iff.mpr (ne_nil_of_mem_pathsOf hrest)
    simpa using hpos
  rw [List.takeWhile_append_of_pos hbelow, List.dropWhile_append_of_pos hbelow]
  match ts with
  | [] => simp [pathsOf]
  | .node s ds :: ts => simp [pathsOf, paths]

/-- **The paths of a forest**, in their order, tell which forest it is. -/
theorem pathsOf_injective (ts us : List IncludeTree) (h : pathsOf ts = pathsOf us) : ts = us := by
  match ts, us with
  | [], [] => rfl
  | [], .node s ds :: us => simp [pathsOf, paths] at h
  | .node r cs :: ts, [] => simp [pathsOf, paths] at h
  | .node r cs :: ts, .node s ds :: us =>
    simp only [pathsOf, paths, List.cons_append, List.cons.injEq] at h
    obtain ⟨⟨rfl, -⟩, h⟩ := h
    -- The roots agree; the next path no longer than a root parts their branches from the siblings.
    obtain ⟨hbelow, hafter⟩ := below_and_after r ds us
    rw [← h, (below_and_after r cs ts).1] at hbelow
    rw [← h, (below_and_after r cs ts).2] at hafter
    have hcs := pathsOf_injective cs ds (List.map_injective_iff.mpr List.cons_injective hbelow)
    rw [hcs, pathsOf_injective ts us hafter]

/-- What a statement loads for specifications, if it loads them. -/
theorem loadPathsOf_eq_ok {E : Type} [Schema E] {model : E} {path : List String}
    {ts : List IncludeTree} {loaded : List (List String)}
    (h : loadPathsOf model path (specsOf ts) = .ok loaded) :
    loaded = (pathsOf ts).map (path ++ ·) := by
  rcases loadOutcome_specsOf model path ts with ⟨-, hloaded⟩ | ⟨_, -, _, _, -, hloaded⟩
  · exact Except.ok.inj (h.symm.trans hloaded)
  · cases h.symm.trans hloaded

/-! ## What a specification keeps -/

/-- **A specification keeps all of its tree.** Specifications are identical, or equal as values,
only where the trees are the same, with the same branches in the same order. A tree is read from
exactly the values that equal its specification, and the three shapes tell how many branches it
has. A statement that loads the specifications of two forests loads the same paths for both only
where the forests are the same. -/
theorem spec_faithful :
    (∀ t u, spec t = spec u ↔ t = u) ∧
    (∀ t u, (spec t).same (spec u) = true ↔ t = u) ∧
    (∀ v t, ofSpec? v = some t ↔ v.same (spec t) = true) ∧
    (∀ t,
      ((∃ name, spec t = .str name) ↔ t.children.length = 0) ∧
      ((∃ key below, spec t = .map [(key, below)] ∧ ∀ items, below ≠ .list items) ↔
        t.children.length = 1) ∧
      ((∃ key items, spec t = .map [(key, .list items)]) ↔ 2 ≤ t.children.length)) ∧
    ∀ (E : Type) [Schema E] (model : E) (path : List String) (ts us : List IncludeTree)
      (loaded : List (List String)), loadPathsOf model path (specsOf ts) = .ok loaded →
      loadPathsOf model path (specsOf us) = .ok loaded → ts = us := by
  refine ⟨fun t u => ⟨fun h => ?_, congrArg spec⟩, same_spec_iff,
    fun v t => ofSpec?_eq_some_iff t v, spec_shapes, ?_⟩
  · have hread := ofSpec?_spec t
    rw [h, ofSpec?_spec] at hread
    exact (Option.some.inj hread).symm
  · intro E _ model path ts us loaded hts hus
    have hpaths := (loadPathsOf_eq_ok hts).symm.trans (loadPathsOf_eq_ok hus)
    exact pathsOf_injective ts us
      (List.map_injective_iff.mpr (List.append_right_injective path) hpaths)

/-- Books with their user, put together in one go and by merging. -/
theorem spec_faithful_of_sample_books :
    loadPathsOf Entity.user [] (specsOf [.node "books" [.node "user" []]]) =
      .ok [["books"], ["books", "user"]] ∧
    loadPathsOf Entity.user [] (specsOf (insert (.node "books" [.node "user" []])
      [.node "books" []])) = .ok [["books"], ["books", "user"]] ∧
    [.node "books" [.node "user" []]] =
      insert (.node "books" [.node "user" []]) [.node "books" []] := by
  have hmade : loadPathsOf Entity.user [] (specsOf [.node "books" [.node "user" []]]) =
      .ok [["books"], ["books", "user"]] := rfl
  have hmerged : loadPathsOf Entity.user [] (specsOf (insert (.node "books" [.node "user" []])
      [.node "books" []])) = .ok [["books"], ["books", "user"]] := by
    rfl
  obtain ⟨-, -, -, -, hloads⟩ := spec_faithful
  exact ⟨hmade, hmerged, hloads Entity Entity.user [] _ _ _ hmade hmerged⟩

end IncludeTree

end ResourceQuery
