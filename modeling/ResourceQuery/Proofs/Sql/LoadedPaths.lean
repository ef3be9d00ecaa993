import ResourceQuery.Proofs.Request.IncludePaths
import ResourceQuery.Proofs.Sql.Steps
import ResourceQuery.Query.Stages
import ResourceQuery.Sql.Sample

/-!
# Paths that are loaded along

An include parameter is merged into a forest, the forest is written as load specifications, and a
statement reads these against its model and the models that relationships lead to. Whatever shape a
specification has, what is loaded in the end are the beginnings of the paths that were asked for,
each once. A path that does not go from relationship to relationship fails instead.

Headlines:
* **`IsChain`**, **`BreaksAt`**: paths along relationships, and where a path is none.
* **`loadPaths_node`**: one reading of the three shapes of a specification.
* **`LoadOutcome`**: all paths, or a break; **`loadOutcome_specsOf`**: the outcome of a forest.
* **`loads_of_includes`**: the whole way from the parameter to the statement.
-/

namespace ResourceQuery.Sql

open IncludeTree

variable {E : Type} [Schema E]

/-! ## Paths along relationships -/

/-- Each name is a relationship of the model that those before it lead to. -/
def IsChain (model : E) : List String → Prop
  | [] => True
  | name :: rest => ∃ r, Schema.relationship? model name = some r ∧ IsChain r.target rest

/-- A path leads along relationships to the model `found`, which has none of the next name. -/
inductive BreaksAt (found : E) (name : String) : E → List String → Prop
  | here (rest : List String) (h : Schema.relationship? found name = none) :
    BreaksAt found name found (name :: rest)
  | beyond {model : E} {first : String} {r : Relationship E} {rest : List String}
    (h : Schema.relationship? model first = some r) (below : BreaksAt found name r.target rest) :
    BreaksAt found name model (first :: rest)

theorem IsChain.of_beginning {model : E} {path names : List String} (h : IsChain model names)
    (hbegins : path <+: names) : IsChain model path := by
  induction path generalizing model names with
  | nil => trivial
  | cons name path ih =>
    cases names with
    | nil => exact absurd (List.prefix_nil.mp hbegins) (List.cons_ne_nil _ _)
    | cons first names =>
      obtain ⟨rfl, hbelow⟩ := List.cons_prefix_cons.mp hbegins
      obtain ⟨r, hr, hchain⟩ := h
      exact ⟨r, hr, ih hchain hbelow⟩

theorem BreaksAt.of_beginning {model found : E} {name : String} {path names : List String}
    (h : BreaksAt found name model path) (hbegins : path <+: names) :
    BreaksAt found name model names := by
  obtain ⟨rest, rfl⟩ := hbegins
  induction h with
  | here below h => exact .here (below ++ rest) h
  | beyond h _ ih => exact .beyond h ih

theorem BreaksAt.not_isChain {model found : E} {name : String} {path : List String}
    (h : BreaksAt found name model path) : ¬ IsChain model path := by
  induction h with
  | here rest h =>
    rintro ⟨r, hr, -⟩
    cases h.symm.trans hr
  | beyond h _ ih =>
    rintro ⟨s, hs, hrest⟩
    cases h.symm.trans hs
    exact ih hrest

/-! ## Reading a specification -/

theorem namedRelationship_of_some {model : E} {name : String} {r : Relationship E}
    (h : Schema.relationship? model name = some r) :
    namedRelationship model (.str name) = .ok (name, r) := by
  simp [namedRelationship, Value.text?, h]

theorem namedRelationship_of_none {model : E} {name : String}
    (h : Schema.relationship? model name = none) :
    namedRelationship model (.str name) =
      .error (.misconfigured (.notRelationship (Schema.name model) name)) := by
  simp [namedRelationship, Value.text?, Value.plain, h]

/-- **The three shapes of a specification** are read alike: its relationship, and below it the
specifications of its branches. -/
theorem loadPaths_node (model : E) (path : List String) (name : String) (cs : List IncludeTree) :
    loadPaths model path (spec (.node name cs)) = (do
      let (name, r) ← namedRelationship model (.str name)
      let nested ← loadPathsOf r.target (path ++ [name]) (specsOf cs)
      return (path ++ [name]) :: nested) := by
  match cs with
  | [] =>
    simp only [spec, specsOf, loadPaths, loadPathsOf, Value.text?, Option.isSome_some, if_true]
    rfl
  | [t] =>
    simp only [spec, specsOf, loadPaths, loadPathsOf, loadPathsOfEntries]
    cases namedRelationship model (.str name) with
    | error e => rfl
    | ok found =>
      cases h : loadPaths found.2.target (path ++ [found.1]) (spec t) with
      | error e => simp [h, bind, Except.bind]
      | ok nested => simp [h, bind, Except.bind, pure, Except.pure]
  | t :: u :: ts =>
    simp only [spec, loadPaths, loadPathsOfEntries]
    cases namedRelationship model (.str name) with
    | error e => rfl
    | ok found =>
      cases h : loadPathsOf found.2.target (path ++ [found.1]) (specsOf (t :: u :: ts)) with
      | error e => simp [h, bind, Except.bind]
      | ok nested => simp [h, bind, Except.bind, pure, Except.pure]

/-! ## The outcome of a forest -/

/-- Every path that is asked for is loaded below `path`, or one of them breaks. -/
def LoadOutcome (model : E) (path : List String) (asked : List (List String))
    (loaded : Except QueryError (List (List String))) : Prop :=
  ((∀ p ∈ asked, IsChain model p) ∧ loaded = .ok (asked.map (path ++ ·))) ∨
    ∃ p ∈ asked, ∃ found name, BreaksAt found name model p ∧
      loaded = .error (.misconfigured (.notRelationship (Schema.name found) name))

mutual

theorem loadOutcome_spec (model : E) (path : List String) (t : IncludeTree) :
    LoadOutcome model path (paths t) (loadPaths model path (spec t)) := by
  obtain ⟨name, cs⟩ := t
  rw [loadPaths_node, paths]
  cases h : Schema.relationship? model name with
  | none =>
    refine .inr ⟨[name], List.mem_cons_self, model, name, .here [] h, ?_⟩
    rw [namedRelationship_of_none h]
    rfl
  | some r =>
    rw [namedRelationship_of_some h]
    rcases loadOutcome_specsOf r.target (path ++ [name]) cs with
      ⟨hchains, hloaded⟩ | ⟨p, hp, found, missing, hbreaks, hloaded⟩
    · refine .inl ⟨fun p hp => ?_, ?_⟩
      · rcases List.mem_cons.mp hp with rfl | hp
        · exact ⟨r, h, trivial⟩
        · obtain ⟨below, hbelow, rfl⟩ := List.mem_map.mp hp
          exact ⟨r, h, hchains below hbelow⟩
      · simp [hloaded, bind, Except.bind, pure, Except.pure]
    · refine .inr ⟨name :: p, List.mem_cons_of_mem _ (List.mem_map.mpr ⟨p, hp, rfl⟩), found,
        missing, .beyond h hbreaks, ?_⟩
      simp [hloaded, bind, Except.bind]

/-- **What is loaded for a forest**: its paths, in their order, or an error at one that breaks. -/
theorem loadOutcome_specsOf (model : E) (path : List String) (forest : List IncludeTree) :
    LoadOutcome model path (pathsOf forest) (loadPathsOf model path (specsOf forest)) := by
  cases forest with
  | nil => exact .inl ⟨List.forall_mem_nil _, rfl⟩
  | cons t ts =>
    rw [specsOf, loadPathsOf, pathsOf]
    rcases loadOutcome_spec model path t with
      ⟨hfirst, hloaded⟩ | ⟨p, hp, found, name, hbreaks, hloaded⟩
    · rcases loadOutcome_specsOf model path ts with
        ⟨hrest, hothers⟩ | ⟨p, hp, found, name, hbreaks, hothers⟩
      · refine .inl ⟨fun p hp => (List.mem_append.mp hp).elim (hfirst p) (hrest p), ?_⟩
        rw [hloaded, hothers, List.map_append]
        rfl
      · refine .inr ⟨p, List.mem_append_right _ hp, found, name, hbreaks, ?_⟩
        rw [hloaded, hothers]
        rfl
    · refine .inr ⟨p, List.mem_append_left _ hp, found, name, hbreaks, ?_⟩
      rw [hloaded]
      rfl

end

/-! ## Include parameters -/

section

variable {model : E} {raw : String}

/-- A parameter whose paths lead along relationships loads their beginnings, each once. -/
theorem loadPathsOf_forest
    (h : ∀ token ∈ Request.tokens raw, IsChain model (chainOf token)) :
    loadPathsOf model [] (specsOf (forest raw)) = .ok (pathsOf (forest raw)) := by
  rcases loadOutcome_specsOf model [] (forest raw) with
    ⟨-, hloaded⟩ | ⟨p, hp, found, name, hbreaks, -⟩
  · simpa using hloaded
  · obtain ⟨-, token, htoken, hbegins⟩ := mem_pathsOf_forest.mp hp
    exact absurd ((h token htoken).of_beginning hbegins) hbreaks.not_isChain

/-- A parameter with a path that does not fails where one of its paths breaks. -/
theorem loadPathsOf_forest_error
    (h : ∃ token ∈ Request.tokens raw, ¬ IsChain model (chainOf token)) :
    ∃ token ∈ Request.tokens raw, ∃ found name, BreaksAt found name model (chainOf token) ∧
      loadPathsOf model [] (specsOf (forest raw)) =
        .error (.misconfigured (.notRelationship (Schema.name found) name)) := by
  obtain ⟨broken, hbroken, hnot⟩ := h
  rcases loadOutcome_specsOf model [] (forest raw) with
    ⟨hchains, -⟩ | ⟨p, hp, found, name, hbreaks, hloaded⟩
  · have hasked : chainOf broken ∈ pathsOf (forest raw) :=
      mem_pathsOf_forest.mpr ⟨chainOf_ne_nil broken, broken, hbroken, List.prefix_rfl⟩
    exact absurd (hchains _ hasked) hnot
  · obtain ⟨-, token, htoken, hbegins⟩ := mem_pathsOf_forest.mp hp
    exact ⟨token, htoken, found, name, hbreaks.of_beginning hbegins, hloaded⟩

end

/-- **From an include parameter to a statement.** If the paths of the parameter lead along
relationships, their beginnings are loaded as well, each once. If one does not, the parameter is
refused at a name that is no relationship of the model that those before it lead to. A parameter
that names nothing leaves any collection as it is. -/
theorem loads_of_includes (raw : String) (q : TableQuery E) :
    ∃ specs, IncludeTree.specs (.str raw) = .ok specs ∧
      ((∀ token ∈ Request.tokens raw, IsChain q.statement.root (chainOf token)) →
        ∃ paths : List (List String),
          q.perform (.includeRelated specs) = .ok
            { q with statement := { q.statement with loads := q.statement.loads ++ paths } } ∧
          paths.Nodup ∧
          ∀ path, path ∈ paths ↔
            path ≠ [] ∧ ∃ token ∈ Request.tokens raw, path <+: chainOf token) ∧
      ((∃ token ∈ Request.tokens raw, ¬ IsChain q.statement.root (chainOf token)) →
        ∃ token ∈ Request.tokens raw, ∃ found name,
          BreaksAt found name q.statement.root (chainOf token) ∧
          q.perform (.includeRelated specs) =
            .error (.misconfigured (.notRelationship (Schema.name found) name))) ∧
      ((∀ piece ∈ Text.split ',' raw, Text.isBlank piece = true) →
        ∀ (C : Type) [Collection C] (collection : C),
          includeRequested (.str raw) collection = pure collection) := by
  have hspecs : IncludeTree.specs (.str raw) = .ok (specsOf (forest raw)) := specs_of_spelling? rfl
  refine ⟨specsOf (forest raw), hspecs, fun hchains => ?_, fun hbroken => ?_,
    fun hblank C _ collection => ?_⟩
  · refine ⟨pathsOf (forest raw), ?_, nodup_pathsOf _ (distinctSiblings_forest raw),
      fun _ => mem_pathsOf_forest⟩
    rw [TableQuery.perform, Statement.perform, loadPathsOf_forest hchains]
    rfl
  · obtain ⟨token, htoken, found, name, hbreaks, hloaded⟩ := loadPathsOf_forest_error hbroken
    refine ⟨token, htoken, found, name, hbreaks, ?_⟩
    rw [TableQuery.perform, Statement.perform, hloaded]
    rfl
  · have hempty : IncludeTree.specs (.str raw) = .ok [] := by
      rw [hspecs, forest_of_blank hblank]
      rfl
    rw [includeRequested, hempty]
    rfl

/-- Books with their users and a mentor are loaded along, a price is refused, and a parameter of
blanks is left alone. -/
theorem loads_of_sample_includes :
    (∃ specs paths, IncludeTree.specs (.str "books.user, books,mentor") = .ok specs ∧
      (TableQuery.all Entity.sample Entity.user).perform (.includeRelated specs) = .ok
        ⟨Entity.sample, { root := Entity.user, loads := paths }⟩ ∧
      paths.Nodup ∧ ["books", "user"] ∈ paths) ∧
    (∃ specs found name, IncludeTree.specs (.str "mentor,books.price") = .ok specs ∧
      (TableQuery.all Entity.sample Entity.user).perform (.includeRelated specs) =
        .error (.misconfigured (.notRelationship (Schema.name (E := Entity) found) name))) ∧
    includeRequested (.str " , ") (TableQuery.all Entity.sample Entity.user) =
      pure (TableQuery.all Entity.sample Entity.user) := by
  have hasked : Request.tokens "books.user, books,mentor" = ["books.user", "books", "mentor"] := by
    cbv
  have hrefused : Request.tokens "mentor,books.price" = ["mentor", "books.price"] := by cbv
  have hbooks : chainOf "books.user" = ["books", "user"] := by cbv
  have hprice : chainOf "books.price" = ["books", "price"] := by cbv
  refine ⟨?_, ?_, ?_⟩
  · obtain ⟨specs, hspecs, hload, -, -⟩ := loads_of_includes "books.user, books,mentor"
      (TableQuery.all Entity.sample Entity.user)
    have hchains : ∀ token ∈ Request.tokens "books.user, books,mentor",
        IsChain Entity.user (chainOf token) := by
      rw [hasked]
      simp only [List.forall_mem_cons]
      refine ⟨?_, ⟨_, rfl, trivial⟩, ⟨_, rfl, trivial⟩, List.forall_mem_nil _⟩
      rw [hbooks]
      exact ⟨_, rfl, _, rfl, trivial⟩
    obtain ⟨paths, hloads, hnodup, hmem⟩ := hload hchains
    have hnested : ["books", "user"] <+: chainOf "books.user" := hbooks ▸ List.prefix_rfl
    exact ⟨specs, paths, hspecs, hloads, hnodup,
      (hmem _).mpr ⟨List.cons_ne_nil _ _, "books.user", by simp [hasked], hnested⟩⟩
  · obtain ⟨specs, hspecs, -, hrefuse, -⟩ := loads_of_includes "mentor,books.price"
      (TableQuery.all Entity.sample Entity.user)
    have hbroken : BreaksAt Entity.book "price" Entity.user (chainOf "books.price") := by
      rw [hprice]
      exact .beyond rfl (.here [] rfl)
    obtain ⟨_, _, found, name, -, herror⟩ :=
      hrefuse ⟨"books.price", by simp [hrefused], hbroken.not_isChain⟩
    exact ⟨specs, found, name, hspecs, herror⟩
  · obtain ⟨_, _, -, -, hblank⟩ := loads_of_includes " , "
      (TableQuery.all Entity.sample Entity.user)
    have hpieces : Text.split ',' " , " = [" ", " "] := by cbv
    exact hblank (by rw [hpieces]; decide) _ _

end ResourceQuery.Sql
