import Mathlib.Data.List.Infix
import Mathlib.Data.List.Pairwise
import ResourceQuery.Proofs.OrderedMap
import ResourceQuery.Proofs.Sql.Joins
import ResourceQuery.Proofs.Sql.Steps

/-!
# Paths that calls join

Calls name dotted paths, and a statement joins each prefix of a path once, when it is named for the
first time. A call therefore leaves the joins that are there, and adds the prefixes of its paths
behind them that are not joined yet, each after the one that it goes on from. Whether a path is
joined is looked up among the aliases, which grow step by step beside the joins: what is found there
for a path is the alias of its own join.

Headlines:
* **`followed`**: the relationship paths that a call names; **`tested`**, **`sortedBy`**: those that
  its restrictions and its order read columns through.
* **`Grown`**: joins that go on from the root and from each other, and the aliases beside them.
* **`JoinedAlong.follow`**, **`foldlM_follow`**: following a path joins it prefix by prefix.
* **`Extends`**: what following paths does to a statement.
* **`extends_perform`**: what a call does.
-/

namespace ResourceQuery.Sql

variable {E : Type}

/-! ## Paths that calls name -/

/-- The prefixes of a path that are not empty, the shortest first. -/
def prefixes (path : List String) : List (List String) := path.inits.tail

/-- The relationships of a dotted path. -/
def relationshipsOf (path : Value) : List String :=
  (path.spelling?.map fun text => (splitPath text).1).getD []

/-- The relationships of the path of an order clause. -/
def relationshipsOfClause (clause : Value) : List String :=
  match unpackClause clause with
  | .ok (name, _) => relationshipsOf name
  | .error _ => []

/-- The relationship paths that a call names, in its order. A path that is joined is one as a
whole. -/
def followed : Call → List (List String)
  | .restrict _ equations => equations.map fun e => relationshipsOf (.str e.1)
  | .compare name _ _ => [relationshipsOf name]
  | .orderBy clauses | .reorder clauses => clauses.map relationshipsOfClause
  | .leftJoin paths => paths.map fun path => (path.spelling?.map (Text.split '.')).getD []
  | .includeRelated _ | .limit _ | .offset _ => []

/-- The path that a restriction reads a column through. A constant reads none. -/
def Restriction.path? : Restriction E → Option (List String)
  | .compare ref _ _ | .null ref _ | .flag ref _ _ | .among ref _ => some ref.path
  | .related path _ _ => some path
  | .constant _ => none

/-- The path that a criterion reads a column through: a column of the root, or nothing. -/
def criterionPath? : Criterion → Option (List String)
  | .column _ _ _ => some []
  | .test _ | .given _ => none

/-- The paths through which the restrictions of a call read columns. -/
def tested : Call → List (Option (List String))
  | .restrict criteria equations =>
    criteria.map criterionPath? ++ equations.map fun e => some (relationshipsOf (.str e.1))
  | .compare name _ _ => [some (relationshipsOf name)]
  | _ => []

/-- The paths of an order after a call. -/
def sortedBy (order : List (List String)) : Call → List (List String)
  | .orderBy clauses => order ++ clauses.map relationshipsOfClause
  | .reorder clauses => clauses.map relationshipsOfClause
  | _ => order

theorem prefixes_cons (name : String) (path : List String) :
    prefixes (name :: path) = [name] :: (prefixes path).map (name :: ·) := by
  unfold prefixes
  rw [List.inits_cons, List.tail_cons]
  cases path with
  | nil => rfl
  | cons next rest => simp

theorem mem_prefixes {p path : List String} : p ∈ prefixes path ↔ p ≠ [] ∧ p <+: path := by
  induction path generalizing p with
  | nil => simp [prefixes]
  | cons name rest ih =>
    rw [prefixes_cons, List.mem_cons, List.mem_map]
    constructor
    · rintro (rfl | ⟨q, hq, rfl⟩)
      · exact ⟨List.cons_ne_nil _ _, List.cons_prefix_cons.mpr ⟨rfl, List.nil_prefix⟩⟩
      · exact ⟨List.cons_ne_nil _ _, List.cons_prefix_cons.mpr ⟨rfl, (ih.mp hq).2⟩⟩
    · rintro ⟨hne, hprefix⟩
      cases p with
      | nil => exact absurd rfl hne
      | cons first q =>
        obtain ⟨rfl, hq⟩ := List.cons_prefix_cons.mp hprefix
        cases q with
        | nil => exact Or.inl rfl
        | cons second q => exact Or.inr ⟨second :: q, ih.mpr ⟨List.cons_ne_nil _ _, hq⟩, rfl⟩

/-! ## What restrictions read -/

/-- The path of an attribute. -/
def AttributeRef.path : AttributeRef E → List String
  | .column ref => ref.path
  | .relationship path _ => path

/-- The columns that are compared for an attribute. -/
def AttributeRef.columns : AttributeRef E → List Column
  | .column ref => [ref.column]
  | .relationship _ r => [r.own, r.other]

/-- The columns that a restriction names. -/
def Restriction.columns : Restriction E → List Column
  | .compare ref _ _ | .null ref _ | .flag ref _ _ | .among ref _ => [ref.column]
  | .related _ r _ => [r.own, r.other]
  | .constant _ => []

section

variable {target : AttributeRef E} {r : Restriction E}

/-- A comparison reads its attribute. -/
theorem reads_of_comparisonFor {op : ColumnOp} {v : Value} (h : comparisonFor target op v = .ok r) :
    r.path? = some target.path ∧ r.columns ⊆ target.columns := by
  cases target with
  | column ref =>
    rcases columnComparison_eq_ok h with ⟨_, -, rfl⟩ | ⟨_, _, -, rfl⟩ | ⟨-, -, rfl⟩ <;>
      exact ⟨rfl, List.Subset.refl _⟩
  | relationship path relationship =>
    obtain ⟨-, negated, rfl⟩ := relationshipComparison_eq_ok h
    unfold absence
    split
    · exact ⟨rfl, List.Subset.refl _⟩
    · exact ⟨rfl, List.cons_subset_cons _ (List.nil_subset _)⟩

/-- An equation reads its attribute. -/
theorem reads_of_restrictionFor {v : Value} (h : restrictionFor target v = .ok r) :
    r.path? = some target.path ∧ r.columns ⊆ target.columns := by
  have hmembership {items : List Value} (h : membershipFor target items = .ok r) :
      r.path? = some target.path ∧ r.columns ⊆ target.columns := by
    cases target with
    | column ref =>
      cases h
      exact ⟨rfl, List.Subset.refl _⟩
    | relationship path relationship => cases h
  cases v with
  | list items => exact hmembership h
  | tuple items => exact hmembership h
  | set items => exact hmembership h
  | _ => exact reads_of_comparisonFor h

end

/-! ## Joins that go on from each other -/

/-- A path leads from the root to a model: the empty one to the root, and that of a join to the
target of its relationship. -/
def LeadsTo (root : E) (joins : List (Join E)) (path : List String) (model : E) : Prop :=
  (path = [] ∧ model = root) ∨ ∃ j ∈ joins, j.path = path ∧ j.relationship.target = model

theorem not_mem_of_nodup_split {before after : List (Join E)} {j : Join E}
    (h : ((before ++ j :: after).map (·.path)).Nodup) : j.path ∉ before.map (·.path) := by
  rw [List.map_append, List.map_cons, List.nodup_append] at h
  exact fun hmem => h.2.2 _ hmem _ List.mem_cons_self rfl

variable [Schema E]

/-- Joins and the aliases beside them. Each join goes on from the table of a path before it, by a
relationship of the model that this path leads to, and no path is joined twice. -/
inductive Grown (root : E) : List (List String × Alias E) → List (Join E) → Prop
  | nil : Grown root [] []
  | snoc {aliases : List (List String × Alias E)} {joins : List (Join E)} {path : List String}
      {model : E} {name : String} {r : Relationship E} (h : Grown root aliases joins)
      (hsource : LeadsTo root joins path model) (hr : Schema.relationship? model name = some r)
      (hnew : path ++ [name] ∉ joins.map (·.path)) :
      Grown root (aliases ++ [(path ++ [name], ⟨path ++ [name], r.target⟩)])
        (joins ++ [⟨path, path ++ [name], r⟩])

namespace Grown

variable {root : E} {aliases : List (List String × Alias E)} {joins : List (Join E)}

/-- **The aliases are those of the joins**, one for each and in their order. -/
theorem aliases_eq (h : Grown root aliases joins) : aliases = aliasesOf joins := by
  induction h with
  | nil => rfl
  | snoc h hsource hr hnew ih => rw [ih, aliasesOf_concat]

theorem nodup (h : Grown root aliases joins) : (joins.map (·.path)).Nodup := by
  induction h with
  | nil => exact List.nodup_nil
  | snoc h hsource hr hnew ih =>
    rw [List.map_append, List.map_singleton, List.nodup_append]
    refine ⟨ih, by simp, fun path hpath other hother heq => ?_⟩
    rw [heq, List.mem_singleton.mp hother] at hpath
    exact hnew hpath

/-- **Each join goes on from a path before it**, by a relationship of the model that this path
leads to. -/
theorem exists_of_split (h : Grown root aliases joins) {before after : List (Join E)} {j : Join E}
    (hsplit : joins = before ++ j :: after) :
    ∃ name model, j.path = j.source ++ [name] ∧ LeadsTo root before j.source model ∧
      Schema.relationship? model name = some j.relationship := by
  induction h generalizing after with
  | nil => simp at hsplit
  | @snoc aliases joins path model name r h hsource hr hnew ih =>
    rcases List.eq_nil_or_concat after with rfl | ⟨rest, last, rfl⟩
    · obtain ⟨rfl, hj⟩ := List.append_inj' hsplit rfl
      cases hj
      exact ⟨name, model, rfl, hsource, hr⟩
    · have hconcat : joins ++ [⟨path, path ++ [name], r⟩] = (before ++ j :: rest) ++ [last] := by
        rw [hsplit]
        simp
      exact ih (List.append_inj' hconcat rfl).1

theorem path_ne_nil (h : Grown root aliases joins) {j : Join E} (hj : j ∈ joins) : j.path ≠ [] := by
  obtain ⟨before, after, hsplit⟩ := List.append_of_mem hj
  obtain ⟨name, model, hpath, -⟩ := h.exists_of_split hsplit
  rw [hpath]
  simp

end Grown

/-- Joins along paths: the paths are joined in the order in which they stand first, each once. -/
structure JoinedAlong (root : E) (paths : List (List String))
    (aliases : List (List String × Alias E)) (joins : List (Join E)) : Prop where
  paths_eq : joins.map (·.path) = paths.eraseDups
  grown : Grown root aliases joins

/-! ## Following paths -/

open Statement

/-- A position where the names have led to the alias of their own path. -/
structure Statement.Position.IsOnPath (root : E) (here : Position E) : Prop where
  path_eq : here.reached.path = here.key
  leads : LeadsTo root here.joins here.key here.reached.model

omit [Schema E] in
theorem Statement.isOnPath_start (s : Statement E) : s.start.IsOnPath s.root :=
  ⟨rfl, .inl ⟨rfl, rfl⟩⟩

/-- Following a relationship goes on the path and keeps the joins. -/
theorem follow_eq_ok {here next : Position E} {name : String}
    (h : Statement.follow here name = .ok next) :
    next.key = here.key ++ [name] ∧ here.joins <+: next.joins := by
  unfold Statement.follow at h
  simp only at h
  split at h
  · cases h
    exact ⟨rfl, List.prefix_refl _⟩
  · split at h
    · cases h
      exact ⟨rfl, List.prefix_append _ _⟩
    · cases h

/-- **One relationship** is joined unless its path is joined already, and leads to the alias of its
path in either case. -/
theorem JoinedAlong.follow {root : E} {paths : List (List String)} {here next : Position E}
    {name : String} (h : JoinedAlong root paths here.aliases here.joins)
    (hhere : here.IsOnPath root) (hnext : Statement.follow here name = .ok next) :
    JoinedAlong root (paths ++ [here.key ++ [name]]) next.aliases next.joins ∧
      next.IsOnPath root := by
  have hmem : here.key ++ [name] ∈ paths ↔ here.key ++ [name] ∈ here.joins.map (·.path) := by
    rw [h.paths_eq, List.mem_eraseDups]
  unfold Statement.follow at hnext
  simp only at hnext
  split at hnext
  · next found hfind =>
    cases hnext
    obtain ⟨j, hj, hpath, rfl⟩ := exists_join_of_find? (h.grown.aliases_eq ▸ hfind)
    have hknown : here.key ++ [name] ∈ paths := hmem.mpr (hpath ▸ List.mem_map_of_mem hj)
    refine ⟨⟨?_, h.grown⟩, ⟨rfl, .inr ⟨j, hj, hpath, rfl⟩⟩⟩
    rw [eraseDups_concat, if_pos hknown]
    exact h.paths_eq
  · next hfind =>
    split at hnext
    · next r hr =>
      cases hnext
      have hnew : here.key ++ [name] ∉ here.joins.map (·.path) :=
        not_mem_of_find? (h.grown.aliases_eq ▸ hfind)
      rw [hhere.path_eq]
      refine ⟨⟨?_, .snoc h.grown hhere.leads hr hnew⟩,
        ⟨rfl, .inr ⟨⟨here.key, here.key ++ [name], r⟩, by simp, rfl, rfl⟩⟩⟩
      rw [eraseDups_concat, if_neg fun hknown => hnew (hmem.mp hknown), List.map_append, h.paths_eq]
      rfl
    · cases hnext

theorem foldlM_follow_eq_ok {names : List String} {here reached : Position E}
    (h : names.foldlM Statement.follow here = .ok reached) :
    reached.key = here.key ++ names ∧ here.joins <+: reached.joins := by
  refine foldlM_run (motive := fun names here reached =>
    reached.key = here.key ++ names ∧ here.joins <+: reached.joins) ?_ ?_ h
  · exact fun here => ⟨(List.append_nil _).symm, List.prefix_refl _⟩
  · rintro name rest here next reached hnext ⟨hkey, hkept⟩
    obtain ⟨hstep, hkept'⟩ := follow_eq_ok hnext
    refine ⟨?_, hkept'.trans hkept⟩
    rw [hkey, hstep]
    simp

/-- **A path of relationships** is joined prefix by prefix. -/
theorem JoinedAlong.foldlM_follow {root : E} {names : List String} {paths : List (List String)}
    {here reached : Position E} (h : JoinedAlong root paths here.aliases here.joins)
    (hhere : here.IsOnPath root)
    (hreached : names.foldlM Statement.follow here = .ok reached) :
    JoinedAlong root (paths ++ (prefixes names).map (here.key ++ ·)) reached.aliases
        reached.joins ∧
      reached.IsOnPath root := by
  refine foldlM_run (motive := fun names here reached =>
    ∀ {paths}, JoinedAlong root paths here.aliases here.joins → here.IsOnPath root →
      JoinedAlong root (paths ++ (prefixes names).map (here.key ++ ·)) reached.aliases
          reached.joins ∧
        reached.IsOnPath root) ?_ ?_ hreached h hhere
  · intro here paths h hhere
    exact ⟨by simpa [prefixes] using h, hhere⟩
  · intro name rest here next reached hnext ih paths h hhere
    obtain ⟨hstep, hnext'⟩ := h.follow hhere hnext
    obtain ⟨hend, hend'⟩ := ih hstep hnext'
    refine ⟨?_, hend'⟩
    rw [(follow_eq_ok hnext).1, List.append_assoc] at hend
    simpa [prefixes_cons, Function.comp_def] using hend

/-- **Where a path has led to** in a statement. -/
theorem followAll_eq_ok {s : Statement E} {names : List String} {reached : Position E}
    (h : s.followAll names = .ok reached) :
    reached.key = names ∧ s.joins <+: reached.joins ∧
      ∀ known, JoinedAlong s.root known s.aliases s.joins →
        JoinedAlong s.root (known ++ prefixes names) reached.aliases reached.joins ∧
          reached.IsOnPath s.root := by
  obtain ⟨hkey, hkept⟩ := foldlM_follow_eq_ok h
  refine ⟨hkey, hkept, fun known hknown => ?_⟩
  obtain ⟨hjoined, hreached⟩ := JoinedAlong.foldlM_follow hknown s.isOnPath_start h
  exact ⟨by simpa [start] using hjoined, hreached⟩

/-- A column of a model, or one that a relationship compares. -/
def Schema.HasColumn (E : Type) [Schema E] (c : Column) : Prop :=
  ∃ model : E, c ∈ columns model ∨ ∃ entry ∈ relationships model,
    c = entry.2.own ∨ c = entry.2.other

/-- An attribute is one of the model that has been reached. -/
theorem of_attribute? {here : Position E} {name : String} {target : AttributeRef E}
    (h : here.attribute? name = some target) :
    target.path = here.reached.path ∧ ∀ c ∈ target.columns, Schema.HasColumn E c := by
  obtain ⟨found, hfound, rfl⟩ := Option.map_eq_some_iff.mp h
  unfold Schema.attribute? at hfound
  cases hcolumn : Schema.column? here.reached.model name with
  | some c =>
    rw [hcolumn] at hfound
    cases hfound
    exact ⟨rfl, List.forall_mem_singleton.mpr ⟨_, .inl (Schema.column?_eq_some hcolumn).1⟩⟩
  | none =>
    rw [hcolumn] at hfound
    obtain ⟨r, hr, rfl⟩ := Option.map_eq_some_iff.mp hfound
    have hmem := Schema.exists_of_relationship? hr
    refine ⟨rfl, List.forall_mem_cons.mpr ⟨⟨_, .inr ⟨_, hmem, .inl rfl⟩⟩, ?_⟩⟩
    exact List.forall_mem_singleton.mpr ⟨_, .inr ⟨_, hmem, .inr rfl⟩⟩

theorem relationshipsOf_of_spelling? {name : Value} {path : String} (h : name.spelling? = some path) :
    relationshipsOf name = (splitPath path).1 := by
  rw [relationshipsOf, h]
  rfl

/-! ## What calls do -/

/-- The joins of a statement have grown from its root, and its aliases beside them. -/
def Statement.IsGrown (s : Statement E) : Prop := Grown s.root s.aliases s.joins

/-- The columns that the restrictions and the order of a statement name. -/
def Statement.readColumns (s : Statement E) : List Column :=
  s.restrictions.flatMap Restriction.columns ++ s.order.map (·.1.column)

/-- They are columns of the schema. -/
def Statement.ReadsSchema (s : Statement E) : Prop :=
  ∀ c ∈ s.readColumns, Schema.HasColumn E c

theorem Grown.joinedAlong {root : E} {aliases : List (List String × Alias E)}
    {joins : List (Join E)} (h : Grown root aliases joins) :
    JoinedAlong root (joins.map (·.path)) aliases joins :=
  ⟨(eraseDups_of_nodup h.nodup).symm, h⟩

/-- What following paths does to a statement: the paths are joined prefix by prefix behind the joins
that are there, and restrictions and clauses that read columns through paths are added. -/
structure Extends (s s' : Statement E) (paths : List (List String))
    (tests : List (Option (List String))) (order : List (List String)) : Prop where
  root_eq : s'.root = s.root
  kept : s.joins <+: s'.joins
  joined : ∀ known, JoinedAlong s.root known s.aliases s.joins →
    JoinedAlong s.root (known ++ paths.flatMap prefixes) s'.aliases s'.joins
  tests_eq : s'.restrictions.map Restriction.path? = s.restrictions.map Restriction.path? ++ tests
  order_eq : s'.order.map (·.1.path) = s.order.map (·.1.path) ++ order
  reads : s.ReadsSchema → s'.ReadsSchema

namespace Extends

variable {s s₁ s₂ s₃ s' : Statement E} {paths paths' : List (List String)}
  {tests tests' : List (Option (List String))} {order order' : List (List String)}

theorem isGrown (h : Extends s s' paths tests order) (hs : s.IsGrown) : s'.IsGrown := by
  have hgrown := (h.joined _ hs.joinedAlong).grown
  rwa [← h.root_eq] at hgrown

theorem refl (s : Statement E) : Extends s s [] [] [] := by
  refine ⟨rfl, List.prefix_refl _, fun known h => ?_, ?_, ?_, id⟩
  · rwa [List.flatMap_nil, List.append_nil]
  · rw [List.append_nil]
  · rw [List.append_nil]

theorem trans (h : Extends s₁ s₂ paths tests order) (h' : Extends s₂ s₃ paths' tests' order') :
    Extends s₁ s₃ (paths ++ paths') (tests ++ tests') (order ++ order') := by
  refine ⟨h'.root_eq.trans h.root_eq, h.kept.trans h'.kept, fun known hknown => ?_, ?_, ?_,
    h'.reads ∘ h.reads⟩
  · have hnext := h.joined known hknown
    rw [← h.root_eq] at hnext ⊢
    rw [List.flatMap_append, ← List.append_assoc]
    exact h'.joined _ hnext
  · rw [h'.tests_eq, h.tests_eq, List.append_assoc]
  · rw [h'.order_eq, h.order_eq, List.append_assoc]

/-- Steps that extend a statement one after the other. -/
theorem foldlM {α : Type} {step : Statement E → α → Except QueryError (Statement E)}
    (paths : α → List (List String)) (tests : α → List (Option (List String)))
    (order : α → List (List String))
    (hstep : ∀ s a s', s.IsGrown → step s a = .ok s' → Extends s s' (paths a) (tests a) (order a))
    {xs : List α} (hs : s.IsGrown) (h : xs.foldlM step s = .ok s') :
    Extends s s' (xs.flatMap paths) (xs.flatMap tests) (xs.flatMap order) := by
  refine foldlM_run (motive := fun xs s s' => s.IsGrown →
    Extends s s' (xs.flatMap paths) (xs.flatMap tests) (xs.flatMap order))
    (fun s _ => Extends.refl s) ?_ h hs
  intro x rest s next s' hnext hrest hs
  have hfirst := hstep _ _ _ hs hnext
  exact hfirst.trans (hrest (hfirst.isGrown hs))

end Extends

/-- Following a path joins it. -/
theorem extends_upTo {s : Statement E} {names : List String} {reached : Position E}
    (h : s.followAll names = .ok reached) : Extends s (s.upTo reached) [names] [] [] := by
  obtain ⟨-, hkept, hjoined⟩ := followAll_eq_ok h
  refine ⟨rfl, hkept, fun known hknown => ?_, ?_, ?_, id⟩
  · rw [List.flatMap_singleton]
    exact (hjoined known hknown).1
  · exact (List.append_nil _).symm
  · exact (List.append_nil _).symm

/-- Resolving a path joins its relationships and leads to an attribute under their alias. -/
theorem extends_resolve {s s' : Statement E} (hs : s.IsGrown) {name : Value}
    {target : AttributeRef E} (h : s.resolve name = .ok (s', target)) :
    Extends s s' [relationshipsOf name] [] [] ∧ target.path = relationshipsOf name ∧
      ∀ c ∈ target.columns, Schema.HasColumn E c := by
  obtain ⟨path, reached, hname, hreached, htarget, rfl⟩ := resolve_eq_ok_iff.mp h
  obtain ⟨hkey, -, hjoined⟩ := followAll_eq_ok hreached
  obtain ⟨hpath, hcolumns⟩ := of_attribute? htarget
  rw [relationshipsOf_of_spelling? hname, hpath]
  exact ⟨extends_upTo hreached, (hjoined _ hs.joinedAlong).2.path_eq.trans hkey, hcolumns⟩

/-- Restrictions are added. -/
theorem extends_foldl_restrict (s : Statement E) {restrictions : List (Restriction E)}
    (hreads : ∀ r ∈ restrictions, ∀ c ∈ r.columns, Schema.HasColumn E c) :
    Extends s (restrictions.foldl Statement.restrict s) []
      (restrictions.map Restriction.path?) [] := by
  rw [foldl_restrict]
  refine ⟨rfl, List.prefix_refl _, fun known h => ?_, ?_, ?_, fun h c hc => ?_⟩
  · rwa [List.flatMap_nil, List.append_nil]
  · rw [List.map_append]
  · rw [List.append_nil]
  · rw [Statement.readColumns, List.flatMap_append, List.append_assoc, List.mem_append,
      List.mem_append] at hc
    rcases hc with hc | hc | hc
    · exact h c (List.mem_append_left _ hc)
    · obtain ⟨r, hr, hc⟩ := List.mem_flatMap.mp hc
      exact hreads r hr c hc
    · exact h c (List.mem_append_right _ hc)

/-- A restriction that reads an attribute is added. -/
theorem extends_restrict (s : Statement E) {r : Restriction E} {target : AttributeRef E}
    (hr : r.path? = some target.path ∧ r.columns ⊆ target.columns)
    (hcolumns : ∀ c ∈ target.columns, Schema.HasColumn E c) :
    Extends s (s.restrict r) [] [some target.path] [] := by
  rw [← hr.1]
  exact extends_foldl_restrict s (List.forall_mem_singleton.mpr fun c hc => hcolumns c (hr.2 hc))

theorem reads_of_criterionFor {s : Statement E} {criterion : Criterion} {r : Restriction E}
    (h : s.criterionFor criterion = .ok r) :
    r.path? = criterionPath? criterion ∧ ∀ c ∈ r.columns, Schema.HasColumn E c := by
  cases criterion with
  | column name op operand =>
    rw [criterionFor] at h
    split at h
    · next target htarget =>
      obtain ⟨hpath, hcolumns⟩ := of_attribute? htarget
      obtain ⟨hread, hsub⟩ := reads_of_comparisonFor h
      exact ⟨hread.trans (congrArg some hpath), fun c hc => hcolumns c (hsub hc)⟩
    · cases h
  | test holds => cases h
  | given v =>
    cases v with
    | null =>
      cases h
      exact ⟨rfl, nofun⟩
    | bool b =>
      cases h
      exact ⟨rfl, nofun⟩
    | _ => cases h

/-- An equation follows its path and reads a column through it. -/
theorem extends_equate {s s' : Statement E} (hs : s.IsGrown) {e : String × Value}
    (h : s.equate e = .ok s') :
    Extends s s' [relationshipsOf (.str e.1)] [some (relationshipsOf (.str e.1))] [] := by
  obtain ⟨next, target, r, hresolve, hr, rfl⟩ := equate_eq_ok_iff.mp h
  obtain ⟨hextends, hpath, hcolumns⟩ := extends_resolve hs hresolve
  rw [← hpath] at hextends ⊢
  exact hextends.trans (extends_restrict next (reads_of_restrictionFor hr) hcolumns)

/-- So does a bound. -/
theorem extends_bound {s s' : Statement E} (hs : s.IsGrown) {name operator operand : Value}
    (h : s.bound name operator operand = .ok s') :
    Extends s s' [relationshipsOf name] [some (relationshipsOf name)] [] := by
  obtain ⟨op, next, target, r, -, hresolve, hr, rfl⟩ := bound_eq_ok_iff.mp h
  obtain ⟨hextends, hpath, hcolumns⟩ := extends_resolve hs hresolve
  rw [← hpath] at hextends ⊢
  exact hextends.trans (extends_restrict next (reads_of_comparisonFor hr) hcolumns)

/-- A column is sorted by. -/
theorem extends_sort (s : Statement E) {ref : ColumnRef} (direction : Direction)
    (href : Schema.HasColumn E ref.column) :
    Extends s { s with order := s.order ++ [(ref, direction)] } [] [] [ref.path] := by
  refine ⟨rfl, List.prefix_refl _, fun known h => ?_, ?_, ?_, fun h c hc => ?_⟩
  · rwa [List.flatMap_nil, List.append_nil]
  · rw [List.append_nil]
  · rw [List.map_append, List.map_singleton]
  · rw [Statement.readColumns, List.map_append, ← List.append_assoc, List.mem_append] at hc
    rcases hc with hc | hc
    · exact h c hc
    · rw [List.mem_singleton.mp hc]
      exact href

/-- An order clause follows its path and sorts by a column through it. -/
theorem extends_orderBy {s s' : Statement E} (hs : s.IsGrown) {clause : Value}
    (h : s.orderBy clause = .ok s') :
    Extends s s' [relationshipsOfClause clause] [] [relationshipsOfClause clause] := by
  obtain ⟨name, given, next, ref, direction, hclause, hresolve, -, rfl⟩ := orderBy_eq_ok_iff.mp h
  have hrelationships : relationshipsOfClause clause = relationshipsOf name := by
    rw [relationshipsOfClause, hclause]
  obtain ⟨hextends, hpath, hcolumns⟩ := extends_resolve hs hresolve
  rw [← hpath] at hextends
  rw [hrelationships, ← hpath]
  exact hextends.trans (extends_sort next direction (hcolumns _ List.mem_cons_self))

/-- A path that is joined is followed as a whole. -/
theorem extends_joinPath {s s' : Statement E} {path : Value} (h : s.joinPath path = .ok s') :
    Extends s s' [(path.spelling?.map (Text.split '.')).getD []] [] [] := by
  obtain ⟨text, reached, htext, hreached, rfl⟩ := joinPath_eq_ok_iff.mp h
  rw [htext]
  exact extends_upTo hreached

/-- A statement before a call adds to its order. -/
def cleared (s : Statement E) : Call → Statement E
  | .reorder _ => { s with order := [] }
  | _ => s

theorem readsSchema_cleared {s : Statement E} (hs : s.ReadsSchema) (call : Call) :
    (cleared s call).ReadsSchema := by
  cases call with
  | reorder clauses =>
    intro c hc
    have hrestrictions : c ∈ s.restrictions.flatMap Restriction.columns := by
      rwa [Statement.readColumns, cleared, List.map_nil, List.append_nil] at hc
    exact hs c (List.mem_append_left _ hrestrictions)
  | _ => exact hs

theorem isGrown_cleared {s : Statement E} (hs : s.IsGrown) (call : Call) :
    (cleared s call).IsGrown := by
  cases call <;> exact hs

/-- Setting parts of a statement that hold no paths. -/
theorem extends_of_eq {s s' : Statement E} (hroot : s'.root = s.root)
    (haliases : s'.aliases = s.aliases) (hjoins : s'.joins = s.joins)
    (hrestrictions : s'.restrictions = s.restrictions) (horder : s'.order = s.order) :
    Extends s s' [] [] [] := by
  refine ⟨hroot, by rw [hjoins], fun known h => ?_, ?_, ?_, fun h => ?_⟩
  · rwa [List.flatMap_nil, List.append_nil, haliases, hjoins]
  · rw [hrestrictions, List.append_nil]
  · rw [horder, List.append_nil]
  · rwa [Statement.ReadsSchema, Statement.readColumns, hrestrictions, horder]

theorem extends_narrow {s s' : Statement E} (hs : s.IsGrown) {criteria : List Criterion}
    {equations : List (String × Value)} (h : s.narrow criteria equations = .ok s') :
    Extends s s' (followed (.restrict criteria equations)) (tested (.restrict criteria equations))
      [] := by
  obtain ⟨-, restrictions, hrestrictions, hrun⟩ := narrow_eq_ok_iff.mp h
  have hcriteria := extends_foldl_restrict s
    (forall_of_mapM (fun _ _ h => (reads_of_criterionFor h).2) hrestrictions)
  rw [map_eq_of_mapM (fun _ _ h => (reads_of_criterionFor h).1) hrestrictions] at hcriteria
  have hequations := Extends.foldlM (fun e : String × Value => [relationshipsOf (.str e.1)])
    (fun e => [some (relationshipsOf (.str e.1))]) (fun _ => []) (fun _ _ _ h => extends_equate h)
    (hcriteria.isGrown hs) hrun
  rw [flatMap_nil_right, ← List.map_eq_flatMap, ← List.map_eq_flatMap] at hequations
  exact hcriteria.trans hequations

/-- **What a call does**: it follows the paths that it names. -/
theorem extends_perform {s s' : Statement E} (hs : s.IsGrown) {call : Call}
    (h : s.perform call = .ok s') :
    Extends (cleared s call) s' (followed call) (tested call) (sortedBy [] call) := by
  have hcleared := isGrown_cleared hs call
  cases call with
  | restrict criteria equations => exact extends_narrow hs h
  | compare name operator operand => exact extends_bound hs h
  | orderBy clauses =>
    have hsteps := Extends.foldlM (fun c => [relationshipsOfClause c]) (fun _ => [])
      (fun c => [relationshipsOfClause c]) (fun _ _ _ h => extends_orderBy h) hcleared h
    rw [flatMap_nil_right, ← List.map_eq_flatMap] at hsteps
    exact hsteps
  | reorder clauses =>
    have hsteps := Extends.foldlM (fun c => [relationshipsOfClause c]) (fun _ => [])
      (fun c => [relationshipsOfClause c]) (fun _ _ _ h => extends_orderBy h) hcleared h
    rw [flatMap_nil_right, ← List.map_eq_flatMap] at hsteps
    exact hsteps
  | leftJoin paths =>
    have hsteps := Extends.foldlM (fun path : Value => [(path.spelling?.map (Text.split '.')).getD []])
      (fun _ => []) (fun _ => []) (fun _ _ _ _ => extends_joinPath) hcleared h
    rw [flatMap_nil_right, flatMap_nil_right, ← List.map_eq_flatMap] at hsteps
    exact hsteps
  | includeRelated specs =>
    obtain ⟨loads, _, h⟩ := Sorting.eq_ok_of_bind h
    cases h
    exact extends_of_eq rfl rfl rfl rfl rfl
  | limit count =>
    obtain ⟨limit, _, h⟩ := Sorting.eq_ok_of_bind h
    cases h
    exact extends_of_eq rfl rfl rfl rfl rfl
  | offset count =>
    obtain ⟨offset, _, h⟩ := Sorting.eq_ok_of_bind h
    cases h
    exact extends_of_eq rfl rfl rfl rfl rfl

end ResourceQuery.Sql
