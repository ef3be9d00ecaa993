import ResourceQuery.Proofs.Sql.JoinInvariant

/-!
# What paths resolve to

Where a path leads does not depend on the joins of a statement: joined or not, each name on it is a
relationship of the model that those before it lead to. A path is therefore resolved exactly if the
schema has it, in every statement that calls have made, and the joins that are added go along it.

Headlines:
* **`Schema.modelAt?`**, **`Schema.attributeAt?`**: where a path leads in a schema.
* **`Grown.modelAt?_of_leadsTo`**: joins lead where the schema does.
* **`Follows`**: what following names does.
* **`exists_follow`**, **`follow_of_none`**: one relationship.
* **`exists_followAll`**, **`followAll_of_none`**: a path of relationships.
* **`exists_resolve`**, **`resolve_of_none`**: a path to an attribute.
-/

namespace ResourceQuery.Sql

variable {E : Type} [Schema E]

namespace Schema

/-- The model that a path of relationships leads to. -/
def modelAt? (model : E) : List String → Option E
  | [] => some model
  | name :: rest => (relationship? model name).bind fun r => modelAt? r.target rest

/-- The attribute that a dotted path leads to. -/
def attributeAt? (root : E) (path : String) : Option (Attribute E) :=
  (modelAt? root (splitPath path).1).bind fun model => attribute? model (splitPath path).2

theorem modelAt?_append (model : E) (path names : List String) :
    modelAt? model (path ++ names) = (modelAt? model path).bind fun m => modelAt? m names := by
  induction path generalizing model with
  | nil => rfl
  | cons name rest ih =>
    rw [List.cons_append, modelAt?, modelAt?]
    cases relationship? model name with
    | none => rfl
    | some r => exact ih r.target

theorem modelAt?_concat {model m : E} {path : List String} (hpath : modelAt? model path = some m)
    (name : String) :
    modelAt? model (path ++ [name]) = (relationship? m name).map (·.target) := by
  rw [modelAt?_append, hpath, Option.bind_some, modelAt?]
  cases relationship? m name with
  | none => rfl
  | some r => rfl

/-- A path of relationships to single records leads where it leads as a path of any. -/
theorem modelAt?_of_target? {model m : E} {names : List String}
    (h : target? model names = some m) : modelAt? model names = some m := by
  induction names generalizing model with
  | nil => exact h
  | cons name rest ih =>
    obtain ⟨r, hr, hrest⟩ := Option.bind_eq_some_iff.mp h
    rw [modelAt?, (toOne?_eq_some_iff.mp hr).1]
    exact ih hrest

end Schema

/-! ## Joins and the schema -/

namespace Grown

variable {root : E} {aliases : List (List String × Alias E)} {joins : List (Join E)}

/-- **Joins lead where the schema does.** -/
theorem modelAt?_of_leadsTo (h : Grown root aliases joins) {path : List String} {model : E}
    (hleads : LeadsTo root joins path model) : Schema.modelAt? root path = some model := by
  induction h generalizing path model with
  | nil =>
    rcases hleads with ⟨rfl, rfl⟩ | ⟨j, hj, -⟩
    · rfl
    · cases hj
  | @snoc aliases joins before parent name r h hsource hr hnew ih =>
    rcases hleads with ⟨rfl, rfl⟩ | ⟨j, hj, hpath, htarget⟩
    · rfl
    · rcases List.mem_append.mp hj with hj | hj
      · exact ih (.inr ⟨j, hj, hpath, htarget⟩)
      · obtain rfl := List.mem_singleton.mp hj
        rw [← hpath, ← htarget, Schema.modelAt?_concat (ih hsource), hr]
        rfl

/-- The relationship of a join is that of the model which its path goes on from. -/
theorem exists_of_mem (h : Grown root aliases joins) {j : Join E} (hj : j ∈ joins) :
    ∃ name model, j.path = j.source ++ [name] ∧ Schema.modelAt? root j.source = some model ∧
      Schema.relationship? model name = some j.relationship := by
  induction h with
  | nil => cases hj
  | @snoc aliases joins before parent name r h hsource hr hnew ih =>
    rcases List.mem_append.mp hj with hj | hj
    · exact ih hj
    · obtain rfl := List.mem_singleton.mp hj
      exact ⟨name, parent, rfl, h.modelAt?_of_leadsTo hsource, hr⟩

/-- A join along a path of relationships to single records is one to single records. -/
theorem toMany_eq_false (h : Grown root aliases joins) {j : Join E} (hj : j ∈ joins)
    {names : List String} {m : E} (htarget : Schema.target? root names = some m)
    (hbegins : j.path <+: names) : j.relationship.toMany = false := by
  obtain ⟨name, model, hpath, hmodel, hr⟩ := h.exists_of_mem hj
  obtain ⟨rest, rfl⟩ := hbegins
  rw [hpath, List.append_assoc, Schema.target?_append] at htarget
  obtain ⟨parent, hparent, htarget⟩ := Option.bind_eq_some_iff.mp htarget
  obtain ⟨r, hone, -⟩ := Option.bind_eq_some_iff.mp htarget
  cases hmodel.symm.trans (Schema.modelAt?_of_target? hparent)
  obtain ⟨hr', hmany⟩ := Schema.toOne?_eq_some_iff.mp hone
  cases hr.symm.trans hr'
  exact hmany

/-- What is looked up for a path is an alias of the path, and leads where the path does. -/
theorem leadsTo_of_find? (h : Grown root aliases joins) {path : List String}
    {entry : List String × Alias E} (hfind : aliases.find? (·.1 == path) = some entry) :
    entry.2.path = path ∧ LeadsTo root joins path entry.2.model := by
  obtain ⟨j, hj, hpath, hfound⟩ := exists_join_of_find? (h.aliases_eq ▸ hfind)
  rw [hfound]
  exact ⟨rfl, .inr ⟨j, hj, hpath, rfl⟩⟩

end Grown

/-! ## Following -/

namespace Statement

variable {root : E}

/-- What following names does to a position: it goes on along them, on its path, and adds joins
along them, each with its alias. -/
structure Follows (root : E) (here : Position E) (names : List String) (target : E)
    (reached : Position E) : Prop where
  key_eq : reached.key = here.key ++ names
  model_eq : reached.reached.model = target
  grown : Grown root reached.aliases reached.joins
  onPath : reached.IsOnPath root
  added : ∃ more, reached.joins = here.joins ++ more ∧ ∀ j ∈ more, j.path <+: here.key ++ names

/-- **A relationship is followed**, and joined if its path has no alias yet. -/
theorem exists_follow {here : Position E} {name : String} {r : Relationship E}
    (h : Grown root here.aliases here.joins) (hhere : here.IsOnPath root)
    (hr : Schema.relationship? here.reached.model name = some r) :
    ∃ next, follow here name = .ok next ∧ Follows root here [name] r.target next := by
  unfold follow
  simp only
  cases hfind : here.aliases.find? (·.1 == here.key ++ [name]) with
  | some entry =>
    obtain ⟨hpath, hleads⟩ := h.leadsTo_of_find? hfind
    have hmodel := h.modelAt?_of_leadsTo hleads
    rw [Schema.modelAt?_concat (h.modelAt?_of_leadsTo hhere.leads), hr] at hmodel
    have htarget : r.target = entry.2.model := Option.some.inj hmodel
    exact ⟨_, rfl, rfl, htarget.symm, h, ⟨hpath, hleads⟩,
      [], (List.append_nil _).symm, fun j hj => nomatch hj⟩
  | none =>
    have hnew : here.key ++ [name] ∉ here.joins.map (·.path) :=
      not_mem_of_find? (h.aliases_eq ▸ hfind)
    simp only [hr]
    refine ⟨_, rfl, rfl, rfl, ?_, ⟨rfl, ?_⟩, _, rfl, fun j hj => ?_⟩
    · rw [hhere.path_eq]
      exact .snoc h hhere.leads hr hnew
    · exact .inr ⟨_, List.mem_append_right _ List.mem_cons_self, rfl, rfl⟩
    · rw [List.mem_singleton.mp hj]

/-- A name that is no relationship is not followed. -/
theorem follow_of_none {here : Position E} {name : String}
    (h : Grown root here.aliases here.joins) (hhere : here.IsOnPath root)
    (hr : Schema.relationship? here.reached.model name = none) :
    follow here name =
      .error (.misconfigured (.notRelationship (Schema.name here.reached.model) name)) := by
  unfold follow
  simp only
  cases hfind : here.aliases.find? (·.1 == here.key ++ [name]) with
  | some entry =>
    have hmodel := h.modelAt?_of_leadsTo (h.leadsTo_of_find? hfind).2
    rw [Schema.modelAt?_concat (h.modelAt?_of_leadsTo hhere.leads), hr] at hmodel
    cases hmodel
  | none => rw [hr]

/-- **A path of relationships is followed**; only joins along it are added. -/
theorem exists_foldlM_follow {names : List String} {target : E} :
    ∀ here : Position E, Grown root here.aliases here.joins → here.IsOnPath root →
      Schema.modelAt? here.reached.model names = some target →
      ∃ reached, names.foldlM follow here = .ok reached ∧
        Follows root here names target reached := by
  induction names with
  | nil =>
    intro here h hhere htarget
    cases htarget
    exact ⟨here, rfl, (List.append_nil _).symm, rfl, h, hhere, [], (List.append_nil _).symm,
      fun j hj => nomatch hj⟩
  | cons name rest ih =>
    intro here h hhere htarget
    obtain ⟨r, hr, hrest⟩ := Option.bind_eq_some_iff.mp htarget
    obtain ⟨next, hfollow, hnext⟩ := exists_follow h hhere hr
    obtain ⟨more, hmore, halong⟩ := hnext.added
    rw [← hnext.model_eq] at hrest
    obtain ⟨reached, hfold, hreached⟩ := ih next hnext.grown hnext.onPath hrest
    obtain ⟨others, hothers, halong'⟩ := hreached.added
    have hkey : next.key ++ rest = here.key ++ name :: rest := by simp [hnext.key_eq]
    refine ⟨reached, ?_, hreached.key_eq.trans hkey, hreached.model_eq, hreached.grown,
      hreached.onPath, more ++ others, ?_, fun j hj => ?_⟩
    · rw [List.foldlM_cons, hfollow]
      exact hfold
    · rw [hothers, hmore, List.append_assoc]
    · rcases List.mem_append.mp hj with hj | hj
      · refine (halong j hj).trans ((List.prefix_append_right_inj _).mpr ?_)
        exact List.cons_prefix_cons.mpr ⟨rfl, List.nil_prefix⟩
      · exact hkey ▸ halong' j hj

/-- A path that the schema does not have is not followed to its end. -/
theorem foldlM_follow_of_none {names : List String} :
    ∀ here : Position E, Grown root here.aliases here.joins → here.IsOnPath root →
      Schema.modelAt? here.reached.model names = none →
      ∃ found name, names.foldlM follow here =
        .error (.misconfigured (.notRelationship (Schema.name (found : E)) name)) := by
  induction names with
  | nil =>
    intro here _ _ htarget
    cases htarget
  | cons name rest ih =>
    intro here h hhere htarget
    cases hr : Schema.relationship? here.reached.model name with
    | none =>
      refine ⟨here.reached.model, name, ?_⟩
      rw [List.foldlM_cons, follow_of_none h hhere hr]
      rfl
    | some r =>
      rw [Schema.modelAt?, hr, Option.bind_some] at htarget
      obtain ⟨next, hfollow, hnext⟩ := exists_follow h hhere hr
      rw [← hnext.model_eq] at htarget
      obtain ⟨found, missing, hfold⟩ := ih next hnext.grown hnext.onPath htarget
      refine ⟨found, missing, ?_⟩
      rw [List.foldlM_cons, hfollow]
      exact hfold

variable {s : Statement E}

theorem exists_followAll (h : s.IsGrown) {names : List String} {target : E}
    (htarget : Schema.modelAt? s.root names = some target) :
    ∃ here, s.followAll names = .ok here ∧ Follows s.root s.start names target here :=
  exists_foldlM_follow s.start h s.isOnPath_start htarget

theorem followAll_of_none (h : s.IsGrown) {names : List String}
    (htarget : Schema.modelAt? s.root names = none) :
    ∃ found name, s.followAll names =
      .error (.misconfigured (.notRelationship (Schema.name (found : E)) name)) :=
  foldlM_follow_of_none s.start h s.isOnPath_start htarget

/-! ## Resolving -/

/-- An attribute where a path has led to. -/
def attributeRef (path : List String) : Attribute E → AttributeRef E
  | .column c => .column ⟨path, c⟩
  | .relationship r => .relationship path r

/-- **A path to an attribute is resolved**; only joins along it are added. -/
theorem exists_resolve (h : s.IsGrown) {name : Value} {path : String}
    (hname : name.text? = some path) {found : Attribute E}
    (hfound : Schema.attributeAt? s.root path = some found) :
    ∃ here model,
      s.resolve name = .ok (s.upTo here, attributeRef (splitPath path).1 found) ∧
        Follows s.root s.start (splitPath path).1 model here := by
  obtain ⟨model, hmodel, hattribute⟩ := Option.bind_eq_some_iff.mp hfound
  obtain ⟨here, hfollow, hhere⟩ := exists_followAll h hmodel
  have hpath : here.reached.path = (splitPath path).1 := hhere.onPath.path_eq.trans hhere.key_eq
  refine ⟨here, model,
    resolve_eq_ok_iff.mpr ⟨path, here, Value.spelling?_of_text? hname, hfollow, ?_, rfl⟩, hhere⟩
  rw [Position.attribute?, hhere.model_eq, hattribute, hpath, Option.map_some]
  cases found with
  | column c => rfl
  | relationship r => rfl

/-- A path that leads to no attribute is not resolved. -/
theorem resolve_of_none (h : s.IsGrown) {name : Value} {path : String}
    (hname : name.text? = some path) (hfound : Schema.attributeAt? s.root path = none) :
    ∃ why, s.resolve name = .error (.misconfigured why) := by
  unfold resolve
  rw [Value.textFor_of_text? hname]
  simp only [bind, Except.bind]
  cases hmodel : Schema.modelAt? s.root (splitPath path).1 with
  | none =>
    obtain ⟨model, missing, hfollow⟩ := followAll_of_none h hmodel
    rw [hfollow]
    exact ⟨_, rfl⟩
  | some model =>
    obtain ⟨here, hfollow, hhere⟩ := exists_followAll h hmodel
    rw [Schema.attributeAt?, hmodel, Option.bind_some] at hfound
    rw [hfollow]
    simp only [Position.attribute?, hhere.model_eq, hfound, Option.map_none]
    exact ⟨_, rfl⟩

end Statement

end ResourceQuery.Sql
