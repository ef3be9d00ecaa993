import ResourceQuery.Proofs.Sql.Joins
import ResourceQuery.Value.Field

/-!
# Rows as nested records

The row of a model as a record: its cells by their columns and, below its relationships to single
records, the records that it refers to, down to a depth. A dotted path into such a record leads to
the cell to which it leads in the database.

Headlines:
* **`Mirrors`**: a record that nests what a row refers to.
* **`resolve_of_mirrors`**: paths into such a record lead where they lead in the database.
* **`nest`**: a row as a nested record; by **`mirrors_nest`** it mirrors the row.
-/

namespace ResourceQuery.Sql

variable {E : Type} [Schema E] {db : Database E} {model : E} {row : Row} {record : Value}

/-- Does a record have the cells of a row? -/
def HasCells (model : E) (row : Row) (record : Value) : Prop :=
  ∀ name c, Schema.column? model name = some c → record.field name = (row.cell name).toValue

/-- A record that has the cells of a row and nests the records that it refers to, down to a
depth. A reference that leads to none is absent. -/
def Mirrors (db : Database E) : Nat → E → Row → Value → Prop
  | 0, model, row, record => HasCells model row record
  | depth + 1, model, row, record => HasCells model row record ∧
      ∀ name r, Schema.toOne? model name = some r →
        (db.reference r row = none → record.field name = .null) ∧
          ∀ other, db.reference r row = some other → Mirrors db depth r.target other
            (record.field name)

theorem Mirrors.hasCells {depth : Nat} (h : Mirrors db depth model row record) :
    HasCells model row record := by
  cases depth with
  | zero => exact h
  | succ depth => exact h.1

theorem foldl_field_null (names : List String) :
    names.foldl (fun v name => Value.field name v) .null = .null := by
  induction names with
  | nil => rfl
  | cons name rest ih => exact ih

theorem foldl_field {names : List String} {target : E} {name : String} {c : Column}
    (hc : Schema.column? target name = some c) :
    ∀ {depth : Nat} {model : E} {row : Row} {record : Value}, names.length ≤ depth →
      Mirrors db depth model row record → Schema.target? model names = some target →
      (names ++ [name]).foldl (fun v name => Value.field name v) record =
        (db.cellAt model row names name).toValue := by
  induction names with
  | nil =>
    intro depth model row record _ h htarget
    cases htarget
    exact h.hasCells name c hc
  | cons first rest ih =>
    intro depth model row record hdepth h htarget
    obtain ⟨r, hr, hrest⟩ := Option.bind_eq_some_iff.mp htarget
    cases depth with
    | zero => exact absurd hdepth (by simp)
    | succ depth =>
      obtain ⟨habsent, hnested⟩ := h.2 first r hr
      have hreach : db.reach model row (first :: rest) =
          (db.reference r row).bind fun other => db.reach r.target other rest := by
        rw [Database.reach, hr, Option.bind_some]
      rw [List.cons_append, List.foldl_cons, Database.cellAt, hreach]
      cases hreference : db.reference r row with
      | none =>
        rw [habsent hreference]
        exact foldl_field_null _
      | some other => exact ih (Nat.le_of_succ_le_succ hdepth) (hnested other hreference) hrest

theorem names_eq_of_splitPath {path name : String} {relationships : List String}
    (h : splitPath path = (relationships, name)) :
    Text.split '.' path = relationships ++ [name] := by
  have hne : Text.split '.' path ≠ [] := fun hnil =>
    Text.segments_ne_nil '.' path.toList (List.map_eq_nil_iff.mp hnil)
  obtain ⟨rfl, rfl⟩ := Prod.mk.inj h
  rw [List.getLastD_eq_getLast?, List.getLast?_eq_some_getLast hne, Option.getD_some,
    List.dropLast_append_getLast hne]

/-- **A dotted path into a record** that mirrors a row leads where it leads in the database. -/
theorem resolve_of_mirrors {depth : Nat} {path : String} {ref : ColumnRef}
    (h : Mirrors db depth model row record) (href : Schema.columnAt? model path = some ref)
    (hdepth : ref.path.length ≤ depth) :
    record.resolve path = (db.cellAt model row ref.path ref.column.name).toValue := by
  obtain ⟨hsplit, target, htarget, hc⟩ := Schema.columnAt?_eq_some_iff.mp href
  unfold Value.resolve
  rw [names_eq_of_splitPath hsplit]
  exact foldl_field hc hdepth h htarget

theorem field_toValue (row : Row) (name : String) :
    row.toValue.field name = (row.cell name).toValue := by
  unfold Row.toValue Value.field Row.cell
  simp only [List.find?_map, Option.map_map]
  cases hfind : row.find? (·.1 == name) with
  | none =>
    have hfind' : row.find? ((fun a => a.1 == name) ∘ fun e => (e.1, e.2.toValue)) = none := hfind
    rw [hfind']
    rfl
  | some e =>
    have hfind' : row.find? ((fun a => a.1 == name) ∘ fun e => (e.1, e.2.toValue)) = some e := hfind
    rw [hfind']
    rfl

/-! ## Nesting -/

/-- The cells of a row as attributes of a record. -/
def attributesOf (model : E) (row : Row) : List (String × Value) :=
  (Schema.columns model).map fun c => (c.name, (row.cell c.name).toValue)

/-- A row as a record that nests the records that it refers to, down to a depth. -/
def nest (db : Database E) : Nat → E → Row → Value
  | 0, model, row => .record (attributesOf model row)
  | depth + 1, model, row =>
    .record (attributesOf model row ++ (Schema.relationships model).filterMap fun (name, r) =>
      if r.toMany then none
      else some (name, ((db.reference r row).map (nest db depth r.target)).getD .null))

/-- No model has a column and a relationship of one name. -/
def Schema.DistinctNames (E : Type) [Schema E] : Prop :=
  ∀ (model : E) (name : String), (column? model name).isSome → relationship? model name = none

theorem find?_attributesOf (model : E) (row : Row) (name : String) :
    (attributesOf model row).find? (·.1 == name) =
      (Schema.column? model name).map fun c => (c.name, (row.cell c.name).toValue) := by
  unfold attributesOf Schema.column?
  rw [List.find?_map]
  rfl

omit [Schema E] in
theorem find?_filterMap_toOne {β : Type} {f : String × Relationship E → β} {name : String}
    {r : Relationship E} {entries : List (String × Relationship E)}
    (h : (entries.find? (·.1 == name)).map (·.2) = some r) (hone : r.toMany = false) :
    (entries.filterMap fun e => if e.2.toMany then none else some (e.1, f e)).find?
      (·.1 == name) = some (name, f (name, r)) := by
  induction entries with
  | nil => cases h
  | cons e rest ih =>
    obtain ⟨first, r'⟩ := e
    by_cases hname : first = name
    · subst hname
      have hr : r' = r := by simpa using h
      subst hr
      simp [hone]
    · have hrest : (rest.find? (·.1 == name)).map (·.2) = some r := by simpa [hname] using h
      by_cases hmany : r'.toMany = true
      · simpa [hmany] using ih hrest
      · simpa [hmany, hname] using ih hrest

/-- **A row as a nested record mirrors the row.** -/
theorem mirrors_nest (hnames : Schema.DistinctNames E) (db : Database E) :
    ∀ (depth : Nat) (model : E) (row : Row), Mirrors db depth model row (nest db depth model row)
  | 0, model, row => by
    intro name c hc
    unfold nest Value.field
    simp [find?_attributesOf, hc, (Schema.column?_eq_some hc).2]
  | depth + 1, model, row => by
    refine ⟨fun name c hc => ?_, fun name r hr => ?_⟩
    · unfold nest Value.field
      simp [List.find?_append, find?_attributesOf, hc, (Schema.column?_eq_some hc).2]
    · obtain ⟨hrelationship, hone⟩ := Schema.toOne?_eq_some_iff.mp hr
      have hcolumn : Schema.column? model name = none := by
        by_contra hsome
        have h := hnames model name (Option.isSome_iff_ne_none.mpr hsome)
        rw [hrelationship] at h
        cases h
      have hfield : (nest db (depth + 1) model row).field name =
          ((db.reference r row).map (nest db depth r.target)).getD .null := by
        unfold nest Value.field
        simp only [List.find?_append, find?_attributesOf, hcolumn, Option.map_none, Option.none_or]
        rw [find?_filterMap_toOne (f := fun e =>
          ((db.reference e.2 row).map (nest db depth e.2.target)).getD .null) hrelationship hone]
        rfl
      rw [hfield]
      refine ⟨fun hnone => ?_, fun other hother => ?_⟩
      · rw [hnone]
        rfl
      · rw [hother]
        exact mirrors_nest hnames db depth r.target other

end ResourceQuery.Sql
