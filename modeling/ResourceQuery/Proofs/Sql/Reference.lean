import ResourceQuery.Proofs.Value.Scalar
import ResourceQuery.Sql.Evaluation

/-!
# The records that a record refers to

A relationship to a single record leads from a record to the one whose key it holds, if there is
one. Keys are unique, so it never leads to two, and a path of such relationships leads from a
record to at most one other.

Headlines:
* **`Schema.Keyed`**: models with a key, by which single records are referred to.
* **`Database.IsSound`**: cells of the kind of their columns, and unique keys.
* **`relatedTo_eq_toList`**: a reference leads to at most one record.
* **`Database.reach`**: the record that a path leads to; **`Database.cellAt`** one of its cells.
-/

namespace ResourceQuery.Sql

open Number

/-! ## Cells of columns -/

/-- Can a column hold a cell? It holds null and what it prefers. -/
def Affinity.admits : Affinity → Cell → Bool
  | _, .null => true
  | .integer, .int _ => true
  | .text, .text _ => true
  | _, _ => false

theorem Affinity.admits_iff {a : Affinity} {x : Cell} :
    a.admits x = true ↔ x = .null ∨ (∃ i, a = .integer ∧ x = .int i) ∨
      ∃ s, a = .text ∧ x = .text s := by
  cases a <;> cases x <;> simp [Affinity.admits]

namespace Cell

theorem compare?_int (i j : Int) : (Cell.int i).compare? (.int j) = some (compare i j) := by
  simp only [compare?, number?, bind, Option.bind_some]
  exact Binary64.compare?_ofInt i j

theorem compare?_text (s t : String) : (Cell.text s).compare? (.text t) = some (compare s t) := rfl

/-- Cells that columns can hold are equal only if they are the same. -/
theorem eq_of_compare? {a b : Affinity} {x y : Cell} (hx : a.admits x = true)
    (hy : b.admits y = true) (h : x.compare? y = some .eq) : x = y := by
  rcases Affinity.admits_iff.mp hx with rfl | ⟨i, -, rfl⟩ | ⟨s, -, rfl⟩
  · cases h
  · rcases Affinity.admits_iff.mp hy with rfl | ⟨j, -, rfl⟩ | ⟨t, -, rfl⟩
    · cases h
    · rw [compare?_int, Option.some.injEq, Int.compare_eq_eq] at h
      rw [h]
    · cases h
  · rcases Affinity.admits_iff.mp hy with rfl | ⟨j, -, rfl⟩ | ⟨t, -, rfl⟩
    · cases h
    · cases h
    · rw [compare?_text, Option.some.injEq, compare_eq_iff_eq] at h
      rw [h]

end Cell

/-- What each operator asks of two elements of a linear order. -/
theorem accepts_compare {α : Type} [LinearOrder α] (p q : α) :
    ColumnOp.eq.accepts (compare p q) = decide (p = q) ∧
      ColumnOp.gt.accepts (compare p q) = decide (q < p) ∧
      ColumnOp.lt.accepts (compare p q) = decide (p < q) := by
  rcases lt_trichotomy p q with h | h | h
  · rw [compare_lt_iff_lt.mpr h]
    simp [ColumnOp.accepts, h, h.ne, h.not_gt]
  · subst h
    rw [compare_eq_iff_eq.mpr rfl]
    simp [ColumnOp.accepts]
  · rw [compare_gt_iff_gt.mpr h]
    simp [ColumnOp.accepts, h, h.ne', h.not_gt]

/-! ## Keys -/

/-- Models whose records are known by a key. A relationship to a single record holds its key. -/
class Schema.Keyed (E : Type) [Schema E] where
  /-- The column that identifies a record. -/
  key : E → Column
  key_mem : ∀ model : E, key model ∈ Schema.columns model
  own_mem : ∀ model : E, ∀ entry ∈ Schema.relationships model, entry.2.toMany = false →
    entry.2.own ∈ Schema.columns model
  other_eq_key : ∀ model : E, ∀ entry ∈ Schema.relationships model, entry.2.toMany = false →
    entry.2.other = key entry.2.target

namespace Schema

variable {E : Type} [Schema E]

/-- The relationship of a name, if it leads to a single record. -/
def toOne? (model : E) (name : String) : Option (Relationship E) :=
  (relationship? model name).filter fun r => !r.toMany

theorem toOne?_eq_some_iff {model : E} {name : String} {r : Relationship E} :
    toOne? model name = some r ↔ relationship? model name = some r ∧ r.toMany = false := by
  simp [toOne?, Option.filter_eq_some_iff]

/-- The model that a path of relationships to single records leads to. -/
def target? (model : E) : List String → Option E
  | [] => some model
  | name :: rest => (toOne? model name).bind fun r => target? r.target rest

theorem target?_append (model : E) (path names : List String) :
    target? model (path ++ names) = (target? model path).bind fun m => target? m names := by
  induction path generalizing model with
  | nil => rfl
  | cons name rest ih =>
    rw [List.cons_append, target?, target?]
    cases toOne? model name with
    | none => rfl
    | some r => exact ih r.target

theorem column?_eq_some {model : E} {name : String} {c : Column}
    (h : column? model name = some c) : c ∈ columns model ∧ c.name = name := by
  refine ⟨List.mem_of_find?_eq_some h, ?_⟩
  simpa using List.find?_some h

theorem exists_of_relationship? {model : E} {name : String} {r : Relationship E}
    (h : relationship? model name = some r) : (name, r) ∈ relationships model := by
  unfold relationship? at h
  obtain ⟨entry, hentry, rfl⟩ := Option.map_eq_some_iff.mp h
  have hname : entry.1 = name := by simpa using List.find?_some hentry
  rw [← hname]
  exact List.mem_of_find?_eq_some hentry

end Schema

namespace Database

variable {E : Type} [Schema E] [Schema.Keyed E]

/-- A database as its schema has it: every cell is of the kind of its column, and no two records
of a model have the same key. -/
structure IsSound (db : Database E) : Prop where
  admits : ∀ model, ∀ row ∈ db.rows model, ∀ c ∈ Schema.columns model,
    c.affinity.admits (row.cell c.name) = true
  distinct : ∀ model, (db.rows model).Pairwise fun a b =>
    a.cell (Schema.Keyed.key model).name ≠ b.cell (Schema.Keyed.key model).name

end Database

theorem eq_toList_of_forall_eq {α : Type} {R : α → α → Prop} {xs : List α} (h : xs.Pairwise R)
    (hnot : ∀ a ∈ xs, ∀ b ∈ xs, ¬ R a b) : xs = xs.head?.toList := by
  cases xs with
  | nil => rfl
  | cons a rest =>
    cases rest with
    | nil => rfl
    | cons b rest =>
      have hab : R a b := (List.pairwise_cons.mp h).1 b List.mem_cons_self
      exact absurd hab (hnot a List.mem_cons_self b (List.mem_cons_of_mem _ List.mem_cons_self))

/-- The record that a row refers to by a relationship. -/
def Database.reference {E : Type} (db : Database E) (r : Relationship E) (row : Row) :
    Option Row :=
  (relatedTo db r (row.cell r.own.name)).head?

theorem mem_of_reference {E : Type} {db : Database E} {r : Relationship E} {row other : Row}
    (h : db.reference r row = some other) : other ∈ db.rows r.target :=
  List.mem_of_mem_filter (List.mem_of_mem_head? h)

/-- **A reference leads to at most one record.** -/
theorem relatedTo_eq_toList {E : Type} [Schema E] [Schema.Keyed E] {db : Database E}
    (hdb : db.IsSound) {model : E} {name : String} {r : Relationship E}
    (hr : Schema.toOne? model name = some r) {row : Row} (hrow : row ∈ db.rows model) :
    relatedTo db r (row.cell r.own.name) = (db.reference r row).toList := by
  obtain ⟨hr, hone⟩ := Schema.toOne?_eq_some_iff.mp hr
  have hentry := Schema.exists_of_relationship? hr
  have hown := hdb.admits model row hrow _ (Schema.Keyed.own_mem model _ hentry hone)
  have hkey := Schema.Keyed.other_eq_key model _ hentry hone
  have hsame : ∀ a ∈ relatedTo db r (row.cell r.own.name),
      row.cell r.own.name = a.cell (Schema.Keyed.key r.target).name := by
    intro a ha
    obtain ⟨hmem, heq⟩ := List.mem_filter.mp ha
    rw [hkey, beq_iff_eq] at heq
    exact Cell.eq_of_compare? hown (hdb.admits _ a hmem _ (Schema.Keyed.key_mem _)) heq
  refine eq_toList_of_forall_eq ((hdb.distinct r.target).filter _) fun a ha b hb hne => ?_
  exact hne ((hsame a ha).symm.trans (hsame b hb))

/-! ## Paths -/

namespace Database

variable {E : Type} [Schema E]

/-- The record that a path of relationships to single records leads to. -/
def reach (db : Database E) (model : E) (row : Row) : List String → Option Row
  | [] => some row
  | name :: rest =>
    (Schema.toOne? model name).bind fun r =>
      (db.reference r row).bind fun other => db.reach r.target other rest

/-- A cell of the record that a path leads to, null if it leads to none. -/
def cellAt (db : Database E) (model : E) (row : Row) (path : List String) (name : String) : Cell :=
  ((db.reach model row path).map (·.cell name)).getD .null

variable {db : Database E} {model : E} {row : Row}

theorem reach_append {path : List String} {m : E} {name : String} {r : Relationship E}
    (hpath : Schema.target? model path = some m) (hr : Schema.toOne? m name = some r) :
    db.reach model row (path ++ [name]) = (db.reach model row path).bind (db.reference r) := by
  induction path generalizing model row with
  | nil =>
    cases hpath
    simp [reach, hr]
  | cons first rest ih =>
    obtain ⟨r', hr', hrest⟩ := Option.bind_eq_some_iff.mp hpath
    rw [List.cons_append, reach, reach, hr', Option.bind_some, Option.bind_some]
    cases db.reference r' row with
    | none => rfl
    | some other => exact ih hrest

theorem mem_of_reach {path : List String} {m : E} {other : Row} (hrow : row ∈ db.rows model)
    (hpath : Schema.target? model path = some m) (h : db.reach model row path = some other) :
    other ∈ db.rows m := by
  induction path generalizing model row with
  | nil =>
    cases hpath
    cases h
    exact hrow
  | cons first rest ih =>
    obtain ⟨r, hr, hrest⟩ := Option.bind_eq_some_iff.mp hpath
    rw [reach, hr, Option.bind_some] at h
    obtain ⟨next, hnext, h⟩ := Option.bind_eq_some_iff.mp h
    exact ih (mem_of_reference hnext) hrest h

/-- A cell at the end of a path is of the kind of its column. -/
theorem admits_cellAt [Schema.Keyed E] (hdb : db.IsSound) {path : List String} {m : E}
    {name : String} {c : Column} (hrow : row ∈ db.rows model)
    (hpath : Schema.target? model path = some m) (hc : Schema.column? m name = some c) :
    c.affinity.admits (db.cellAt model row path c.name) = true := by
  unfold cellAt
  cases h : db.reach model row path with
  | none => exact Affinity.admits_iff.mpr (Or.inl rfl)
  | some other =>
    exact hdb.admits m other (mem_of_reach hrow hpath h) c (Schema.column?_eq_some hc).1

end Database

end ResourceQuery.Sql
