import ResourceQuery.Proofs.Sql.JoinPaths

/-!
# Joins in the text of a statement

A text is read as words with what stands between them. Its parts are printed one behind the other
with blanks, points, commas and brackets between, so the words of the whole are those of its parts.
Each join is written with one keyword, and nothing else in the text is: the names of tables and
columns are words of their own, and the values that are compared stand behind question marks.

Headlines:
* **`joinWords`**: how often the keyword of a join stands in a text.
* **`Schema.HasPlainNames`**: names of tables and columns that are words other than it.
* **`joinWords_text`**: a statement is written with one for each of its joins.
-/

namespace ResourceQuery.Sql

open Statement

variable {E : Type}

/-! ## Words -/

/-- Does a character end a word? -/
def isBreak (c : Char) : Bool := !(c.isAlphanum || c == '_')

/-- How often the keyword of a join stands in a text. -/
def joinWords (text : String) : Nat := (text.toList.splitOnP isBreak).count "JOIN".toList

/-- Does a text without the keyword begin and end between words? -/
def separates (text : String) : Bool :=
  text.toList.head?.any isBreak && text.toList.getLast?.any isBreak && joinWords text == 0

/-- Is a name a word other than the keyword of a join? -/
def isPlainName (name : String) : Bool := name.toList.all (!isBreak ·) && name != "JOIN"

section

variable {a b : String}

/-- The words of a text are those of its parts on both sides of a break. -/
theorem count_splitOnP {c : Char} (hc : isBreak c = true) (before after : List Char) :
    ((before ++ c :: after).splitOnP isBreak).count "JOIN".toList =
      (before.splitOnP isBreak).count "JOIN".toList +
        (after.splitOnP isBreak).count "JOIN".toList := by
  rw [List.splitOnP_append_cons _ _ hc, List.count_append]

theorem joinWords_append_of_last (h : a.toList.getLast?.any isBreak = true) :
    joinWords (a ++ b) = joinWords a + joinWords b := by
  obtain ⟨c, hlast, hc⟩ := (Option.any_eq_true _ _).mp h
  obtain ⟨before, hbefore⟩ := List.getLast?_eq_some_iff.mp hlast
  unfold joinWords
  rw [String.toList_append, hbefore, List.append_assoc, List.singleton_append, count_splitOnP hc,
    count_splitOnP hc]
  rfl

theorem joinWords_append_of_head (h : b.toList.head?.any isBreak = true) :
    joinWords (a ++ b) = joinWords a + joinWords b := by
  obtain ⟨c, hhead, hc⟩ := (Option.any_eq_true _ _).mp h
  obtain ⟨after, hafter⟩ := List.head?_eq_some_iff.mp hhead
  unfold joinWords
  rw [String.toList_append, hafter, count_splitOnP hc, ← List.nil_append (c :: after),
    count_splitOnP hc, List.splitOnP_nil]
  simp

theorem any_getLast?_append (a : String) (h : b.toList.getLast?.any isBreak = true) :
    (a ++ b).toList.getLast?.any isBreak = true := by
  obtain ⟨c, hc, hbreak⟩ := (Option.any_eq_true _ _).mp h
  rw [String.toList_append, List.getLast?_append, hc]
  exact hbreak

/-- Parts on both sides of what separates them. -/
theorem joinWords_between (between : String) (h : separates between = true) :
    joinWords (a ++ between ++ b) = joinWords a + joinWords b := by
  obtain ⟨hbreaks, hnone⟩ := Bool.and_eq_true_iff.mp h
  obtain ⟨hhead, hlast⟩ := Bool.and_eq_true_iff.mp hbreaks
  rw [joinWords_append_of_last (any_getLast?_append a hlast), joinWords_append_of_head hhead,
    eq_of_beq hnone, Nat.add_zero]

theorem joinWords_of_word {name : String} (h : ∀ c ∈ name.toList, isBreak c = false)
    (hne : name ≠ "JOIN") : joinWords name = 0 := by
  unfold joinWords
  rw [List.splitOnP_eq_singleton h, List.count_eq_zero, List.mem_singleton]
  exact fun heq => hne (String.toList_injective heq.symm)

theorem isPlainName_iff {name : String} :
    isPlainName name = true ↔ (∀ c ∈ name.toList, isBreak c = false) ∧ name ≠ "JOIN" := by
  simp [isPlainName]

theorem joinWords_of_isPlainName {name : String} (h : isPlainName name = true) :
    joinWords name = 0 :=
  joinWords_of_word (isPlainName_iff.mp h).1 (isPlainName_iff.mp h).2

/-- Parts with the same between each two. -/
theorem joinWords_intercalate {between : String} (h : separates between = true)
    {parts : List String} (hparts : ∀ p ∈ parts, joinWords p = 0) :
    joinWords (between.intercalate parts) = 0 := by
  induction parts with
  | nil => rfl
  | cons p rest ih =>
    rw [List.forall_mem_cons] at hparts
    cases rest with
    | nil => exact hparts.1
    | cons q rest =>
      rw [String.intercalate_cons_cons, joinWords_between between h, hparts.1, ih hparts.2]

theorem joinWords_commaList {parts : List String} (hparts : ∀ p ∈ parts, joinWords p = 0) :
    joinWords (Value.commaList parts) = 0 :=
  joinWords_intercalate (by decide) hparts

/-- A clause adds the words of its parts behind a keyword. -/
theorem joinWords_append_clauseText (a : String) {keyword between : String}
    (hkeyword : separates (" " ++ keyword ++ " ") = true) (h : separates between = true)
    {parts : List String} (hparts : ∀ p ∈ parts, joinWords p = 0) :
    joinWords (a ++ clauseText keyword between parts) = joinWords a := by
  unfold clauseText
  split
  · rw [String.append_empty]
  · rw [← String.append_assoc, joinWords_between _ hkeyword, joinWords_intercalate h hparts,
      Nat.add_zero]

end

/-! ## Names -/

variable [Schema E]

/-- Names of tables and columns that are words other than the keyword of a join. -/
structure Schema.HasPlainNames (E : Type) [Schema E] : Prop where
  table : ∀ model : E, isPlainName (Schema.table model) = true
  column : ∀ c, Schema.HasColumn E c → isPlainName c.name = true

section

variable {s : Statement E}

/-- The name of an alias is a word. -/
theorem joinWords_sourceName (hnames : Schema.HasPlainNames E) (s : Statement E)
    (path : List String) : joinWords (s.sourceName path) = 0 := by
  unfold sourceName
  split
  · exact joinWords_of_isPlainName (hnames.table s.root)
  · next j _ =>
    refine joinWords_of_word (fun c hc => ?_) fun heq => ?_
    · simp only [String.toList_append, List.mem_append] at hc
      rcases hc with (hc | hc) | hc
      · exact (isPlainName_iff.mp (hnames.table _)).1 c hc
      · rw [List.mem_singleton.mp hc]
        rfl
      · rw [Nat.toString_eq_repr, Nat.toList_repr] at hc
        have hdigit := Nat.isDigit_of_mem_toDigits (by decide) (by decide) hc
        simp [isBreak, Char.isAlphanum, hdigit]
    · have hmem : '_' ∈ "JOIN".toList := by
        rw [← heq]
        simp
      exact absurd hmem (by decide)

theorem joinWords_columnText (hnames : Schema.HasPlainNames E) (path : List String) {c : Column}
    (hc : Schema.HasColumn E c) : joinWords (s.columnText path c.name) = 0 := by
  rw [columnText, joinWords_between "." (by decide), joinWords_sourceName hnames,
    joinWords_of_isPlainName (hnames.column c hc)]

/-! ## Parts of a statement -/

theorem joinWords_refText (hnames : Schema.HasPlainNames E) {ref : ColumnRef}
    (href : Schema.HasColumn E ref.column) : joinWords (s.refText ref) = 0 :=
  joinWords_columnText hnames ref.path href

theorem joinWords_joinCondition (hnames : Schema.HasPlainNames E) {j : Join E}
    (hown : Schema.HasColumn E j.relationship.own)
    (hother : Schema.HasColumn E j.relationship.other) : joinWords (s.joinCondition j) = 0 := by
  unfold joinCondition
  split <;>
    rw [joinWords_between " = " (by decide), joinWords_columnText hnames _ hown,
      joinWords_columnText hnames _ hother]

/-- A join adds one keyword to the text before it. -/
theorem joinWords_append_joinText (hnames : Schema.HasPlainNames E) {j : Join E}
    (hown : Schema.HasColumn E j.relationship.own)
    (hother : Schema.HasColumn E j.relationship.other) (a : String) :
    joinWords (a ++ s.joinText j) = joinWords a + 1 := by
  have hkeyword : joinWords " LEFT OUTER JOIN " = 1 := by decide
  unfold joinText tableOf
  simp only [← String.append_assoc]
  rw [joinWords_between " ON " (by decide), joinWords_between " AS " (by decide),
    joinWords_append_of_last (any_getLast?_append a (by decide)),
    joinWords_append_of_head (by decide), hkeyword, joinWords_of_isPlainName (hnames.table _),
    joinWords_sourceName hnames, joinWords_joinCondition hnames hown hother]

theorem joinWords_operatorText (op : ColumnOp) : joinWords (operatorText op) = 0 := by
  cases op <;> decide

theorem joinWords_directionText (d : Direction) : joinWords (directionText d) = 0 := by
  cases d <;> decide

theorem joinWords_constantText (truth : Option Bool) : joinWords (constantText truth) = 0 := by
  rcases truth with _ | _ | _ <;> decide

theorem joinWords_operandsText (operands : List Value) : joinWords (operandsText operands) = 0 := by
  unfold operandsText
  split
  · decide
  · refine joinWords_commaList fun p hp => ?_
    obtain ⟨v, -, rfl⟩ := List.mem_map.mp hp
    decide

theorem joinWords_existsText (hnames : Schema.HasPlainNames E) (path : List String)
    {r : Relationship E} (hown : Schema.HasColumn E r.own) (hother : Schema.HasColumn E r.other) :
    joinWords (s.existsText path r) = 0 := by
  unfold existsText
  rw [joinWords_append_of_head (by decide), joinWords_between "." (by decide),
    joinWords_between " = " (by decide), joinWords_between " WHERE " (by decide),
    joinWords_append_of_last (by decide), joinWords_of_isPlainName (hnames.table _),
    joinWords_columnText hnames path hown, joinWords_of_isPlainName (hnames.column _ hother)]
  decide

theorem joinWords_restrictionText (hnames : Schema.HasPlainNames E) {r : Restriction E}
    (hr : ∀ c ∈ r.columns, Schema.HasColumn E c) : joinWords (s.restrictionText r) = 0 := by
  cases r with
  | compare ref op operand =>
    have href := joinWords_refText (s := s) hnames (hr _ List.mem_cons_self)
    rw [restrictionText, joinWords_append_of_head (by decide), joinWords_between " " (by decide),
      href, joinWords_operatorText]
    decide
  | null ref negated =>
    have href := joinWords_refText (s := s) hnames (hr _ List.mem_cons_self)
    rw [restrictionText, joinWords_append_of_head (by cases negated <;> decide), href]
    cases negated <;> decide
  | flag ref negated value =>
    have href := joinWords_refText (s := s) hnames (hr _ List.mem_cons_self)
    rw [restrictionText, joinWords_between _ (by cases negated <;> decide), href]
    cases negated <;> cases value <;> decide
  | among ref operands =>
    have href := joinWords_refText (s := s) hnames (hr _ List.mem_cons_self)
    rw [restrictionText, joinWords_append_of_head (by decide), joinWords_between " IN (" (by decide),
      href, joinWords_operandsText]
    decide
  | related path r negated =>
    have hexists := joinWords_existsText (s := s) hnames path (hr _ List.mem_cons_self)
      (hr _ (List.mem_cons_of_mem _ List.mem_cons_self))
    cases negated with
    | false => exact hexists
    | true =>
      rw [restrictionText, if_pos rfl, joinWords_append_of_head (by decide),
        joinWords_append_of_last (by decide), hexists]
      decide
  | constant truth => exact joinWords_constantText truth

theorem joinWords_conjunctText (hnames : Schema.HasPlainNames E) {r : Restriction E}
    (hr : ∀ c ∈ r.columns, Schema.HasColumn E c) : joinWords (s.conjunctText r) = 0 := by
  have hrestriction := joinWords_restrictionText (s := s) hnames hr
  unfold conjunctText
  split
  · next path r =>
    have hexists : joinWords (s.existsText path r) = 0 := hrestriction
    rw [joinWords_append_of_head (by decide), joinWords_append_of_last (by decide), hexists]
    rfl
  · exact hrestriction

/-- None of the conditions that are written has the keyword. -/
theorem joinWords_of_mem_conditionsText (hnames : Schema.HasPlainNames E) (hreads : s.ReadsSchema)
    {text : String} (htext : text ∈ s.conditionsText) : joinWords text = 0 := by
  have hcolumns : ∀ r ∈ conditions s.restrictions, ∀ c ∈ r.columns, Schema.HasColumn E c := by
    intro r hr c hc
    rcases mem_conditions hr with hr | rfl
    · exact hreads c (List.mem_append_left _ (List.mem_flatMap.mpr ⟨r, hr, hc⟩))
    · cases hc
  unfold conditionsText at htext
  split at htext
  · next r heq =>
    rw [List.mem_singleton.mp htext]
    exact joinWords_restrictionText hnames (hcolumns r (heq ▸ List.mem_cons_self))
  · obtain ⟨r, hr, rfl⟩ := List.mem_map.mp htext
    exact joinWords_conjunctText hnames (hcolumns r hr)

/-- Joins behind a text add one keyword each. -/
theorem joinWords_append_join (hnames : Schema.HasPlainNames E) {joins : List (Join E)}
    (hjoins : ∀ j ∈ joins, Schema.HasColumn E j.relationship.own ∧
      Schema.HasColumn E j.relationship.other) (a : String) :
    joinWords (a ++ String.join (joins.map s.joinText)) = joinWords a + joins.length := by
  induction joins generalizing a with
  | nil => rw [List.map_nil, String.join_nil, String.append_empty, List.length_nil, Nat.add_zero]
  | cons j rest ih =>
    obtain ⟨⟨hown, hother⟩, hrest⟩ := List.forall_mem_cons.mp hjoins
    rw [List.map_cons, String.join_cons, ← String.append_assoc, ih hrest,
      joinWords_append_joinText hnames hown hother, List.length_cons]
    omega

/-- The columns of a joined relationship are columns of the schema. -/
theorem hasColumn_of_mem_joins (h : s.IsGrown) {j : Join E} (hj : j ∈ s.joins) :
    Schema.HasColumn E j.relationship.own ∧ Schema.HasColumn E j.relationship.other := by
  obtain ⟨before, after, hsplit⟩ := List.append_of_mem hj
  obtain ⟨name, model, -, -, hr⟩ := h.exists_of_split hsplit
  have hmem := Schema.exists_of_relationship? hr
  exact ⟨⟨model, .inr ⟨_, hmem, .inl rfl⟩⟩, ⟨model, .inr ⟨_, hmem, .inr rfl⟩⟩⟩

/-- **A statement is written with one keyword for each of its joins**, and with no other. -/
theorem joinWords_text (hnames : Schema.HasPlainNames E) (hgrown : s.IsGrown)
    (hreads : s.ReadsSchema) : joinWords s.text = s.joins.length := by
  have hselected : joinWords ("SELECT " ++
      Value.commaList ((Schema.columns s.root).map fun c => s.columnText [] c.name) ++ " FROM " ++
        Schema.table s.root) = 0 := by
    rw [joinWords_between " FROM " (by decide), joinWords_append_of_last (by decide),
      joinWords_commaList fun p hp => ?_, joinWords_of_isPlainName (hnames.table _)]
    · rfl
    · obtain ⟨c, hc, rfl⟩ := List.mem_map.mp hp
      exact joinWords_columnText hnames [] ⟨s.root, .inl hc⟩
  have horder : ∀ p ∈ s.order.map (fun o => s.refText o.1 ++ " " ++ directionText o.2),
      joinWords p = 0 := by
    intro p hp
    obtain ⟨⟨ref, direction⟩, ho, rfl⟩ := List.mem_map.mp hp
    have href := hreads ref.column (List.mem_append_right _ (List.mem_map_of_mem ho))
    rw [joinWords_between " " (by decide), joinWords_refText hnames href,
      joinWords_directionText]
  have hlimit (a : String) :
      joinWords (a ++ if s.hasWindow then " LIMIT ? OFFSET ?" else "") = joinWords a := by
    split
    · rw [joinWords_append_of_head (by decide)]
      rfl
    · rw [String.append_empty]
  unfold text
  rw [hlimit, joinWords_append_clauseText _ (by decide) (by decide) horder,
    joinWords_append_clauseText _ (by decide) (by decide)
      fun p hp => joinWords_of_mem_conditionsText hnames hreads hp,
    joinWords_append_join hnames fun j hj => hasColumn_of_mem_joins hgrown hj, hselected,
    Nat.zero_add]

end

end ResourceQuery.Sql
