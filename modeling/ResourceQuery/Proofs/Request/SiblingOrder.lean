import Mathlib.Data.List.Infix
import Mathlib.Data.List.Pairwise
import ResourceQuery.Proofs.OrderedMap
import ResourceQuery.Proofs.Request.IncludePaths

/-!
# The siblings of an include forest

What stands below a node of the forest, and in which order: the names that follow the path to that
node in the tokens of the parameter, each where a token first mentions it. Names that are in the
forest already are merged without a trace.

Headlines:
* **`IncludeTree.childrenAt`**: what stands below a path of a forest.
* **`IncludeTree.namesAt_insertAll_ofChain`**: what merging one path does to the names there.
* **`IncludeTree.namesAt_forest`**: the names below each path of a whole parameter.
* **`IncludeTree.insertAll_ofChain_of_mem`**: merging a path that is there changes nothing.
* **`IncludeTree.readAll_prefixTree`**: the forest of a parameter is the tree of its prefixes.
-/

namespace ResourceQuery

namespace IncludeTree

open Text Request

/-! ## Below a path -/

/-- What stands below a path of a forest, and nothing if the path is not there. -/
def childrenAt : List String → List IncludeTree → List IncludeTree
  | [], forest => forest
  | name :: path, forest =>
    match forest.find? (·.relationship == name) with
    | some t => childrenAt path t.children
    | none => []

/-- The names below a path. -/
def namesAt (path : List String) (forest : List IncludeTree) : List String :=
  (childrenAt path forest).map relationship

/-- The name that follows a path in a chain of names that begins with it. -/
def nextName : List String → List String → Option String
  | [], chain => chain.head?
  | name :: path, first :: chain => if name = first then nextName path chain else none
  | _ :: _, [] => none

theorem nextName_eq_some_iff {path chain : List String} {name : String} :
    nextName path chain = some name ↔ path ++ [name] <+: chain := by
  induction path generalizing chain with
  | nil => cases chain <;> simp [nextName, eq_comm]
  | cons first path ih =>
    cases chain with
    | nil => simp [nextName]
    | cons other chain =>
      rw [nextName, List.cons_append, List.cons_prefix_cons]
      split
      · next h => rw [ih, and_iff_right h]
      · next h => simp [h]

theorem nextName_nil (path : List String) : nextName path [] = none := by
  cases path <;> rfl

theorem namesAt_nil (path : List String) : namesAt path [] = [] := by
  cases path <;> rfl

theorem namesAt_cons_of_find? {name : String} {path : List String} {forest : List IncludeTree}
    {t : IncludeTree} (h : forest.find? (·.relationship == name) = some t) :
    namesAt (name :: path) forest = namesAt path t.children := by
  rw [namesAt, childrenAt, h]
  rfl

/-- Only the tree that is looked up counts. -/
theorem namesAt_cons_congr {name : String} {path : List String} {forest others : List IncludeTree}
    (h : forest.find? (·.relationship == name) = others.find? (·.relationship == name)) :
    namesAt (name :: path) forest = namesAt (name :: path) others := by
  rw [namesAt, namesAt, childrenAt, childrenAt, h]

/-- The tree of a name is found behind trees of other names. -/
theorem find?_behind {name : String} {before : List IncludeTree}
    (h : ∀ t ∈ before, t.relationship ≠ name) (cs after : List IncludeTree) :
    (before ++ .node name cs :: after).find? (·.relationship == name) = some (.node name cs) := by
  have hbefore : before.find? (·.relationship == name) = none :=
    List.find?_eq_none.mpr fun t ht => by simpa using h t ht
  rw [List.find?_append, hbefore, Option.none_or, List.find?_cons_of_pos]
  simp [relationship]

/-- Trees in front of which no other has their name, and what is below them. -/
theorem distinctSiblings_behind {name : String} {cs before after : List IncludeTree}
    (h : DistinctSiblings (before ++ .node name cs :: after)) :
    (∀ t ∈ before, t.relationship ≠ name) ∧ DistinctSiblings cs := by
  obtain ⟨hnames, hbelow⟩ := distinctSiblings_iff.mp h
  refine ⟨fun t ht => ?_, hbelow (.node name cs) (by simp)⟩
  exact (List.pairwise_append.mp hnames).2.2 t ht _ List.mem_cons_self

/-! ## Merging one path -/

theorem insertAll_ofChain_nil (chain : List String) :
    insertAll (ofChain chain).toList [] = (ofChain chain).toList := by
  cases chain with
  | nil => rfl
  | cons name rest => rfl

/-- **Merging a path** puts its next name behind those that are below a path already, unless the
name is one of them. -/
theorem namesAt_insertAll_ofChain (path chain : List String) {forest : List IncludeTree}
    (h : DistinctSiblings forest) :
    namesAt path (insertAll (ofChain chain).toList forest) =
      match nextName path chain with
      | none => namesAt path forest
      | some name =>
        if name ∈ namesAt path forest then namesAt path forest
        else namesAt path forest ++ [name] := by
  induction chain generalizing path forest with
  | nil =>
    rw [nextName_nil]
    rfl
  | cons r rest ih =>
    have hinsert : insertAll (ofChain (r :: rest)).toList forest =
        insert (.node r (ofChain rest).toList) forest := by
      rw [ofChain, Option.toList_some, insertAll, insertAll]
    rw [hinsert]
    rcases insert_cases r (ofChain rest).toList forest with
      ⟨before, children, after, rfl, hmerged⟩ | ⟨hnew, hmerged⟩
    · obtain ⟨hbefore, hchildren⟩ := distinctSiblings_behind h
      rw [hmerged]
      cases path with
      | nil => simp [namesAt, childrenAt, nextName, relationship]
      | cons name path =>
        rw [nextName]
        split_ifs with hname
        · subst hname
          rw [namesAt_cons_of_find? (find?_behind hbefore _ after),
            namesAt_cons_of_find? (find?_behind hbefore _ after)]
          exact ih path hchildren
        · refine namesAt_cons_congr ?_
          rw [List.find?_append, List.find?_append, List.find?_cons_of_neg,
            List.find?_cons_of_neg]
          all_goals simpa [relationship] using Ne.symm hname
    · rw [hmerged]
      cases path with
      | nil =>
        have hmem : r ∉ forest.map relationship := by simpa using hnew
        simp [namesAt, childrenAt, nextName, relationship, hmem]
      | cons name path =>
        rw [nextName]
        split_ifs with hname
        · subst hname
          have hnone : namesAt (name :: path) forest = [] := by
            have hfind : forest.find? (·.relationship == name) = none :=
              List.find?_eq_none.mpr fun t ht => by simpa using hnew t ht
            rw [namesAt, childrenAt, hfind]
            rfl
          -- the new tree is the path itself, which is what merging it into nothing gives
          have hbelow := @ih path [] trivial
          rw [insertAll_ofChain_nil, namesAt_nil] at hbelow
          rw [namesAt_cons_of_find? (find?_behind hnew _ []), hnone]
          exact hbelow
        · refine namesAt_cons_congr ?_
          rw [List.find?_append, List.find?_cons_of_neg, List.find?_nil, Option.or_none]
          simpa [relationship] using Ne.symm hname

/-- **Merging a path that is there** changes nothing. -/
theorem insertAll_ofChain_of_mem {chain : List String} {forest : List IncludeTree}
    (h : DistinctSiblings forest) (hmem : chain ∈ pathsOf forest) :
    insertAll (ofChain chain).toList forest = forest := by
  induction chain generalizing forest with
  | nil => exact absurd rfl (ne_nil_of_mem_pathsOf hmem)
  | cons r rest ih =>
    rw [ofChain, Option.toList_some, insertAll, insertAll]
    obtain ⟨t, ht, hpath⟩ := mem_pathsOf.mp hmem
    obtain ⟨_, hroot⟩ := exists_of_mem_paths hpath
    rcases insert_cases r (ofChain rest).toList forest with
      ⟨before, children, after, rfl, hmerged⟩ | ⟨hnew, -⟩
    · obtain ⟨hnames, -⟩ := distinctSiblings_iff.mp h
      have hsymm : Std.Symm fun t u : IncludeTree => t.relationship ≠ u.relationship :=
        ⟨fun _ _ hne => hne.symm⟩
      have hsame : t = .node r children := by
        by_contra hne
        exact hnames.forall ht (by simp) hne (List.cons_eq_cons.mp hroot).1.symm
      subst hsame
      have hrest : insertAll (ofChain rest).toList children = children := by
        rcases List.mem_cons.mp hpath with hself | hpath
        · rw [(List.cons_eq_cons.mp hself).2]
          rfl
        · obtain ⟨below, hrest, heq⟩ := List.mem_map.mp hpath
          rw [(List.cons_eq_cons.mp heq).2] at hrest
          exact ih (distinctSiblings_behind h).2 hrest
      rw [hmerged, hrest]
    · exact absurd (List.cons_eq_cons.mp hroot).1.symm (hnew t ht)

/-! ## The forest of a parameter -/

theorem insertAll_map_parse_concat (texts : List String) (text : String)
    (forest : List IncludeTree) :
    insertAll ((texts ++ [text]).map parse) forest =
      insertAll (ofChain (chainOf text)).toList (insertAll (texts.map parse) forest) := by
  rw [List.map_append, insertAll_append, ofChain_chainOf]
  rfl

/-- **The names below a path** of a whole parameter are those that follow it in the tokens, each
where it first does. -/
theorem namesAt_forest (path : List String) (raw : String) :
    namesAt path (forest raw) =
      ((tokens raw).filterMap fun token => nextName path (chainOf token)).eraseDups := by
  have hmerged (texts : List String) :
      DistinctSiblings (insertAll (texts.map parse) []) ∧
      namesAt path (insertAll (texts.map parse) []) =
        (texts.filterMap fun text => nextName path (chainOf text)).eraseDups := by
    induction texts using List.reverseRecOn with
    | nil => exact ⟨trivial, namesAt_nil path⟩
    | append_singleton texts text ih =>
      obtain ⟨hdistinct, hnames⟩ := ih
      rw [insertAll_map_parse_concat, namesAt_insertAll_ofChain path _ hdistinct, hnames,
        List.filterMap_append]
      refine ⟨distinctSiblings_insertAll _ _ (distinctSiblings_iff.mp
        (distinctSiblings_ofChain (chainOf text))).2 hdistinct, ?_⟩
      cases hnext : nextName path (chainOf text) with
      | none => simp [hnext]
      | some name =>
        have htext : [text].filterMap (fun text => nextName path (chainOf text)) = [name] := by
          simp [hnext]
        rw [htext, eraseDups_concat]
        simp only [List.mem_eraseDups]
  exact (hmerged (tokens raw)).2

/-- The names below a path go on from it to the paths of the forest. -/
theorem mem_namesAt_forest {path : List String} {raw name : String} :
    name ∈ namesAt path (forest raw) ↔ path ++ [name] ∈ pathsOf (forest raw) := by
  rw [namesAt_forest, List.mem_eraseDups, List.mem_filterMap, mem_pathsOf_forest]
  simp [nextName_eq_some_iff]

/-- The number of the first of some tokens that mentions a path. -/
def firstMention (texts path : List String) : Nat :=
  texts.findIdx fun text => path.isPrefixOf (chainOf text)

/-- **Siblings stand in the order in which they are mentioned.** -/
theorem pairwise_firstMention (path : List String) (raw : String) :
    (namesAt path (forest raw)).Pairwise fun a b =>
      firstMention (tokens raw) (path ++ [a]) < firstMention (tokens raw) (path ++ [b]) := by
  have hmention (name : String) : firstMention (tokens raw) (path ++ [name]) =
      (tokens raw).findIdx fun token => nextName path (chainOf token) == some name := by
    refine congrArg (List.findIdx · (tokens raw)) (funext fun token => ?_)
    rw [Bool.eq_iff_iff, List.isPrefixOf_iff_prefix, beq_iff_eq, nextName_eq_some_iff]
  simp only [hmention, namesAt_forest]
  exact pairwise_findIdx_eraseDups (fun token => nextName path (chainOf token)) (tokens raw)

theorem tokens_append (raw more : String) :
    tokens (raw ++ "," ++ more) = tokens raw ++ tokens more := by
  have hchars : (raw ++ "," ++ more).toList = raw.toList ++ ',' :: more.toList := by simp
  rw [tokens, hchars, segments_append_cons, List.map_append, List.filterMap_append]
  rfl

/-- Tokens whose paths are there leave the forest as it is. -/
theorem forest_append {raw more : String}
    (h : ∀ token ∈ tokens more, chainOf token ∈ pathsOf (forest raw)) :
    forest (raw ++ "," ++ more) = forest raw := by
  rw [forest, tokens_append, List.map_append, insertAll_append]
  show insertAll ((tokens more).map parse) (forest raw) = forest raw
  have hsame {token : String} (htoken : chainOf token ∈ pathsOf (forest raw)) :
      insert (parse token) (forest raw) = forest raw := by
    have hmerged := insertAll_ofChain_of_mem (distinctSiblings_forest raw) htoken
    rwa [ofChain_chainOf, Option.toList_some, insertAll, insertAll] at hmerged
  generalize tokens more = texts at h
  induction texts with
  | nil => rfl
  | cons token rest ih =>
    obtain ⟨htoken, hrest⟩ := List.forall_mem_cons.mp h
    rw [List.map_cons, insertAll, hsame htoken]
    exact ih hrest

/-- **The forest of a parameter is the tree of its prefixes.** Every text is read. No two siblings
have the same name, at no level; the paths to its nodes are the prefixes of the chains that the
tokens are read as; what stands below a path goes on from it, in the order of the first tokens that
mention it; and tokens behind the others whose paths are there change nothing. -/
theorem readAll_prefixTree (raw : String) :
    ∃ forest, readAll (.str raw) = .ok forest ∧ DistinctSiblings forest ∧
      (∀ token ∈ tokens raw, ofChain (chainOf token) = some (parse token)) ∧
      (∀ path, path ∈ pathsOf forest ↔
        path ≠ [] ∧ ∃ token ∈ tokens raw, path <+: chainOf token) ∧
      (∀ path,
        (∀ name, name ∈ namesAt path forest ↔ path ++ [name] ∈ pathsOf forest) ∧
        (namesAt path forest).Pairwise fun a b =>
          firstMention (tokens raw) (path ++ [a]) < firstMention (tokens raw) (path ++ [b])) ∧
      ∀ more, (∀ token ∈ tokens more, chainOf token ∈ pathsOf forest) →
        readAll (.str (raw ++ "," ++ more)) = .ok forest := by
  refine ⟨forest raw, readAll_str raw, distinctSiblings_forest raw,
    fun token _ => ofChain_chainOf token, fun path => mem_pathsOf_forest,
    fun path => ⟨fun name => mem_namesAt_forest, pairwise_firstMention path raw⟩,
    fun more hmore => ?_⟩
  rw [readAll_str, forest_append hmore]

/-- A path that branches off an earlier one, and tokens whose paths are there already, spaced in
another way. -/
theorem readAll_of_books :
    ∃ forest, readAll (.str "books.author,shelf,books. publisher ") = .ok forest ∧
      namesAt [] forest = ["books", "shelf"] ∧
      namesAt ["books"] forest = ["author", "publisher"] ∧
      readAll (.str ("books.author,shelf,books. publisher " ++ "," ++
        " books . author .,,shelf,books")) = .ok forest := by
  have htokens : tokens "books.author,shelf,books. publisher " =
      ["books.author", "shelf", "books. publisher"] := by cbv
  have hauthor : chainOf "books.author" = ["books", "author"] := by cbv
  have hshelf : chainOf "shelf" = ["shelf"] := by cbv
  have hpublisher : chainOf "books. publisher" = ["books", "publisher"] := by cbv
  obtain ⟨f, hf, -, -, hpaths, -, hmore⟩ :=
    readAll_prefixTree "books.author,shelf,books. publisher "
  have hforest := Except.ok.inj (hf.symm.trans (readAll_str _))
  refine ⟨f, hf, ?_, ?_, hmore " books . author .,,shelf,books" ?_⟩
  · rw [hforest, namesAt_forest, htokens]
    simp [hauthor, hshelf, hpublisher, nextName, List.eraseDups_cons]
  · rw [hforest, namesAt_forest, htokens]
    simp [hauthor, hshelf, hpublisher, nextName, List.eraseDups_cons]
  · have hrespelt : tokens " books . author .,,shelf,books" =
        ["books . author .", "shelf", "books"] := by cbv
    have hagain : chainOf "books . author ." = ["books", "author"] := by cbv
    have hbooks : chainOf "books" = ["books"] := by cbv
    rw [hrespelt]
    simp [hpaths, htokens, hauthor, hshelf, hpublisher, hagain, hbooks]

end IncludeTree

end ResourceQuery
