import ResourceQuery.Proofs.Query.Blameless
import ResourceQuery.Proofs.Sql.Resolution

/-!
# Calls that blame no declaration

A statement over a model answers a call whose names are attributes of the model, or refuses it for
its values. Either way no declaration is to blame, and what the statement joins goes on from its
model as before.

Headlines:
* **`blameless_restrictionFor`**, **`blameless_comparisonFor`**: comparisons of an attribute.
* **`Statement.IsOver`**: a statement over a model; **`IsOver.resolve`**, **`IsOver.equate`**,
  **`IsOver.orderBy`**, **`IsOver.bound`**: the parts of calls.
* **`Answered`**: calls that are answered without blame, with one lemma for each call of a query.
* **`IsAt`**, **`Answered.perform`**: the same for what a stage hands on.
* **`blameless_count`**, **`blameless_all`**: running a statement.
-/

namespace ResourceQuery.Sql

variable {E : Type} [Schema E] {root : E}

/-! ## Comparisons -/

section

omit [Schema E]

theorem blameless_columnComparison (ref : ColumnRef) (op : ColumnOp) (v : Value) :
    Blameless (fun _ : Restriction E => True) (columnComparison ref op v) := by
  unfold columnComparison
  split
  all_goals first | exact .ok trivial | exact .error rfl

theorem blameless_relationshipComparison (path : List String) (r : Relationship E) (op : ColumnOp)
    (v : Value) : Blameless (fun _ => True) (relationshipComparison path r op v) := by
  unfold relationshipComparison
  split
  · exact .ok trivial
  · exact .ok trivial
  · split <;> exact .error rfl
  · split <;> exact .error rfl
  · exact .error rfl

theorem blameless_comparisonFor (target : AttributeRef E) (op : ColumnOp) (v : Value) :
    Blameless (fun _ => True) (comparisonFor target op v) := by
  cases target with
  | column ref => exact blameless_columnComparison ref op v
  | relationship path r => exact blameless_relationshipComparison path r op v

theorem blameless_membershipFor (target : AttributeRef E) (items : List Value) :
    Blameless (fun _ => True) (membershipFor target items) := by
  cases target with
  | column ref => exact .ok trivial
  | relationship path r => exact .error rfl

theorem blameless_restrictionFor (target : AttributeRef E) (v : Value) :
    Blameless (fun _ => True) (restrictionFor target v) := by
  unfold restrictionFor
  split
  · exact blameless_membershipFor target _
  · exact blameless_membershipFor target _
  · exact blameless_membershipFor target _
  · exact blameless_comparisonFor target .eq v

end

theorem blameless_boundOperator (v : Value) : Blameless (fun _ => True) (boundOperator v) := by
  unfold boundOperator
  split
  · exact .ok trivial
  · exact .ok trivial
  · exact .error rfl

theorem blameless_windowNumber (v : Value) : Blameless (fun _ => True) (windowNumber v) := by
  unfold windowNumber
  split
  · exact .ok trivial
  · split
    · exact .ok trivial
    · exact .error rfl
  · split
    · next text _ =>
      cases Number.integerOf text with
      | ok i => exact .ok trivial
      | error why => exact .error rfl
    · exact .ok trivial
    · exact .error rfl

/-! ## Statements over a model -/

/-- A statement over a model, whose joins go on from it and from each other. -/
structure Statement.IsOver (root : E) (s : Statement E) : Prop where
  root_eq : s.root = root
  grown : Grown root s.aliases s.joins

namespace Statement.IsOver

variable {s : Statement E} {name : String}

theorem of_eq {s' : Statement E} (h : s.IsOver root) (hroot : s'.root = s.root)
    (haliases : s'.aliases = s.aliases) (hjoins : s'.joins = s.joins) : s'.IsOver root :=
  ⟨hroot.trans h.root_eq, hjoins ▸ haliases ▸ h.grown⟩

/-- A path to an attribute is resolved. -/
theorem resolve (h : s.IsOver root) (hfound : (Schema.attributeAt? root name).isSome) :
    Blameless (fun next => next.1.IsOver root) (s.resolve (.str name)) := by
  obtain ⟨rfl, hgrown⟩ := h
  obtain ⟨found, hfound⟩ := Option.isSome_iff_exists.mp hfound
  have hname : (Value.str name).text? = some name := rfl
  obtain ⟨here, _, hresolve, hhere⟩ := exists_resolve hgrown hname hfound
  rw [hresolve]
  exact .ok ⟨rfl, hhere.grown⟩

/-- An equation of an attribute with a value is added, or refused for what the value is. -/
theorem equate (h : s.IsOver root) {equation : String × Value}
    (hfound : (Schema.attributeAt? root equation.1).isSome) :
    Blameless (Statement.IsOver root) (s.equate equation) :=
  (h.resolve hfound).bind fun _ hnext =>
    (blameless_restrictionFor _ _).bind fun _ _ => .ok (hnext.of_eq rfl rfl rfl)

/-- An attribute is sorted by, unless it is a relationship. -/
theorem orderBy (h : s.IsOver root) {clause : OrderClause}
    (hfound : (Schema.attributeAt? root clause.name).isSome) :
    Blameless (Statement.IsOver root) (s.orderBy clause.toValue) := by
  refine (h.resolve hfound).bind fun next hnext => ?_
  have hdirection : handedDirection clause.direction.toValue = .ok clause.direction := by
    rw [handedDirection, Direction.read?_toValue]
  rw [hdirection]
  obtain ⟨t, target⟩ := next
  cases target with
  | column ref => exact .ok (hnext.of_eq rfl rfl rfl)
  | relationship path r => exact .error rfl

/-- A bound of an attribute is added, or refused for what it is. -/
theorem bound (h : s.IsOver root) (hfound : (Schema.attributeAt? root name).isSome)
    (operator operand : Value) :
    Blameless (Statement.IsOver root) (s.bound (.str name) operator operand) :=
  (blameless_boundOperator operator).bind fun _ _ =>
    (h.resolve hfound).bind fun _ hnext =>
      (blameless_comparisonFor _ _ _).bind fun _ _ => .ok (hnext.of_eq rfl rfl rfl)

end Statement.IsOver

/-- A clause whose attribute is not resolved is refused with it. -/
theorem Statement.orderBy_of_error (s : Statement E) (clause : OrderClause) {e : QueryError}
    (h : s.resolve (.str clause.name) = .error e) : s.orderBy clause.toValue = .error e := by
  show (s.resolve (.str clause.name) >>= _) = _
  rw [h]
  rfl

/-! ## Calls -/

/-- A call that statements over a model answer without blame. -/
def Answered (root : E) (call : Call) : Prop :=
  ∀ s : Statement E, s.IsOver root → Blameless (Statement.IsOver root) (s.perform call)

theorem answered_orderByClauses {clauses : List OrderClause}
    (h : ∀ c ∈ clauses, (Schema.attributeAt? root c.name).isSome) :
    Answered root (.orderByClauses clauses) := by
  intro s hs
  refine Blameless.foldlM (fun v hv s hs => ?_) hs
  obtain ⟨c, hc, rfl⟩ := List.mem_map.mp hv
  exact hs.orderBy (h c hc)

theorem answered_reorderClauses {clauses : List OrderClause}
    (h : ∀ c ∈ clauses, (Schema.attributeAt? root c.name).isSome) :
    Answered root (.reorderClauses clauses) :=
  fun s hs => answered_orderByClauses h { s with order := [] } (hs.of_eq rfl rfl rfl)

theorem answered_equation {name : String} (h : (Schema.attributeAt? root name).isSome) (v : Value) :
    Answered root (.restrict [] [(name, v)]) := by
  intro s hs
  show Blameless _ (s.narrow [] [(name, v)])
  unfold Statement.narrow
  split
  · exact .error rfl
  · exact Blameless.foldlM
      (fun equation hmem s hs => by
        obtain rfl := List.mem_singleton.mp hmem
        exact hs.equate h) hs

theorem answered_compare {name : String} (h : (Schema.attributeAt? root name).isSome)
    (operator operand : Value) : Answered root (.compare (.str name) operator operand) :=
  fun _ hs => hs.bound h operator operand

theorem answered_limit (count : Value) : Answered root (.limit count) :=
  fun _ hs => (blameless_windowNumber count).bind fun _ _ => .ok (hs.of_eq rfl rfl rfl)

theorem answered_offset (count : Value) : Answered root (.offset count) :=
  fun _ hs => (blameless_windowNumber count).bind fun _ _ => .ok (hs.of_eq rfl rfl rfl)

/-! ## What stages hand on -/

/-- A collection of a model, or a value in its place. -/
def IsAt (root : E) : Selection (TableQuery E) → Prop
  | .live q => q.statement.IsOver root
  | .given _ => True

section

variable {c : Selection (TableQuery E)}

/-- **A call** that is answered without blame hands a collection on. -/
theorem Answered.perform {call : Call} (h : Answered root call) (hc : IsAt root c) :
    Blameless (IsAt root) (Collection.perform call c).result := by
  cases c with
  | given v => exact blameless_given call v
  | live q =>
    have hstatement : Blameless (fun t : TableQuery E => t.statement.IsOver root)
        (q.perform call) := (h q.statement hc).bind fun _ hs => .ok hs
    exact hstatement.check fun _ ht => .ok ht

omit [Schema E] in
theorem blameless_prepared (s : Statement E) : Blameless (fun _ => True) s.prepared := by
  refine (Blameless.mapM (Q := fun _ => True) (fun r => ?_) _).bind fun _ _ => .ok trivial
  have hparameter (first : Option Value) (v : Value) :
      Blameless (fun _ => True) (parameterLike first v) := by
    unfold parameterLike truthParameter doubleParameter
    split
    · split
      · exact .ok trivial
      · split
        · exact .ok trivial
        · split
          · exact .ok trivial
          · exact .error rfl
    · split
      · exact .ok trivial
      · split
        · exact .ok trivial
        · exact .error rfl
    · exact .ok trivial
  unfold Restriction.prepared
  split
  · exact (Blameless.mapM (Q := fun _ => True) (hparameter _) _).bind fun _ _ => .ok trivial
  · exact .ok trivial

theorem isConfiguration_bindingFault (v : Value) : (bindingFault v).isConfiguration = false := by
  unfold bindingFault
  split
  · rfl
  · rfl

theorem blameless_bindParameter (v : Value) : Blameless (fun _ => True) (bindParameter v) := by
  unfold bindParameter
  split
  · split
    · exact .ok trivial
    · exact .error rfl
  · exact .ok trivial
  · exact .error (isConfiguration_bindingFault v)

theorem blameless_count (c : Selection (TableQuery E)) :
    Blameless (fun _ => True) (Collection.count c).result := by
  cases c with
  | given v => exact .error (isConfiguration_refusal _ v)
  | live q =>
    exact (blameless_prepared _).bind fun _ _ =>
      (Blameless.mapM blameless_bindParameter _).bind fun _ _ => .ok trivial

theorem blameless_all (c : Selection (TableQuery E)) :
    Blameless (fun _ => True) (Collection.all c).result := by
  cases c with
  | given v => exact .error (isConfiguration_refusal _ v)
  | live q =>
    have hrows : Blameless (fun _ => True) (q.statement.rows q.database) :=
      (blameless_prepared _).bind fun _ _ =>
        (Blameless.mapM blameless_bindParameter _).bind fun _ _ => .ok trivial
    exact hrows.bind fun _ _ => .ok trivial

end

end ResourceQuery.Sql
