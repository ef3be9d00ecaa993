import ResourceQuery.Proofs.Sql.JoinWords
import ResourceQuery.Sql.Sample

/-!
# The joins of a sequence of calls

Whatever calls a statement has answered, the paths that have an alias are the prefixes of the paths
that these have named, in the order in which they were first named, and the statement has the join
of each of them and no other. Each is joined to the table of the path before it, under an alias of
its own. Later calls add joins behind them and change none, so a column that is read through a path
is read from the alias that the path was given first.

Headlines:
* **`nodup_sourceName`**, **`sourceName_of_kept`**: the names of aliases differ, and stay.
* **`JoinInvariant`**: what a statement holds of the paths that calls have named; kept by one call
  in **`JoinInvariant.perform`** and by any further ones in **`JoinInvariant.foldlM_perform`**.
* **`joins_of_calls`**: the joins of any sequence of calls, and what further calls leave of them.
-/

namespace ResourceQuery.Sql

open Statement

variable {E : Type} [Schema E]

/-! ## Aliases -/

/-- The alias of a join behind others. -/
def aliasOf (before : List (Join E)) (j : Join E) : String :=
  tableOf j ++ "_" ++ toString ((before.filter (tableOf · == tableOf j)).length + 1)

theorem toString_nat_injective {m n : Nat} (h : toString m = toString n) : m = n := by
  have hdigits : Nat.toDigits 10 m = Nat.toDigits 10 n := by
    simpa only [Nat.toString_eq_repr, Nat.toList_repr] using congrArg String.toList h
  simpa using congrArg (fun digits => Nat.ofDigitChars 10 digits 0) hdigits

/-- A name and a number behind an underscore determine both. -/
theorem numbered_injective {table table' : String} {m n : Nat}
    (h : table ++ "_" ++ toString m = table' ++ "_" ++ toString n) : table = table' ∧ m = n := by
  have hdigits (k : Nat) : '_' ∉ (toString k).toList.reverse := by
    rw [Nat.toString_eq_repr, Nat.toList_repr, List.mem_reverse]
    exact fun hmem => absurd (Nat.isDigit_of_mem_toDigits (by decide) (by decide) hmem) (by decide)
  have hchars : (toString m).toList.reverse ++ '_' :: table.toList.reverse =
      (toString n).toList.reverse ++ '_' :: table'.toList.reverse := by
    simpa using congrArg (fun s : String => s.toList.reverse) h
  have hsegments := congrArg (Text.segments '_') hchars
  rw [Text.segments_append_sep (hdigits m), Text.segments_append_sep (hdigits n)] at hsegments
  have hnumber := (List.cons_eq_cons.mp hsegments).1
  rw [hnumber] at hchars
  have htable := (List.cons_eq_cons.mp (List.append_cancel_left hchars)).2
  exact ⟨String.toList_injective (List.reverse_injective htable),
    toString_nat_injective (String.toList_injective (List.reverse_injective hnumber))⟩

/-- The name of a joined table is the alias that its join was given. -/
theorem sourceName_of_split {s : Statement E} {before after : List (Join E)} {j : Join E}
    (hsplit : s.joins = before ++ j :: after) (hnew : j.path ∉ before.map (·.path)) :
    s.sourceName j.path = aliasOf before j := by
  have hother : ∀ k ∈ before, k.path ≠ j.path := fun k hk heq =>
    hnew (heq ▸ List.mem_map_of_mem hk)
  have hfind : s.joins.find? (·.path == j.path) = some j := by
    have hnone : before.find? (·.path == j.path) = none :=
      List.find?_eq_none.mpr fun k hk => by simpa using hother k hk
    rw [hsplit, List.find?_append, hnone]
    simp
  have hbefore : s.joins.takeWhile (·.path != j.path) = before := by
    rw [hsplit, List.takeWhile_append_of_pos fun k hk => by simpa using hother k hk]
    simp
  unfold sourceName
  simp only [hfind, hbefore]
  rfl

/-- A path that is not joined is that of the root. -/
theorem sourceName_of_not_mem {s : Statement E} {path : List String}
    (h : path ∉ s.joins.map (·.path)) : s.sourceName path = Schema.table s.root := by
  have hnone : s.joins.find? (·.path == path) = none := by
    refine List.find?_eq_none.mpr fun j hj => ?_
    have hne : j.path ≠ path := fun heq => h (heq ▸ List.mem_map_of_mem hj)
    simpa using hne
  unfold sourceName
  rw [hnone]

theorem aliasOf_ne {before mid : List (Join E)} {j k : Join E} :
    aliasOf before j ≠ aliasOf (before ++ j :: mid) k := by
  intro h
  obtain ⟨htable, hcount⟩ := numbered_injective h
  rw [htable, List.filter_append, List.filter_cons_of_pos (by simp [htable]), List.length_append,
    List.length_cons] at hcount
  omega

/-- **Every join has an alias of its own.** -/
theorem nodup_sourceName {s : Statement E} (h : (s.joins.map (·.path)).Nodup) :
    (s.joins.map fun j => s.sourceName j.path).Nodup := by
  have hrest : ∀ rest before : List (Join E), s.joins = before ++ rest →
      rest.Pairwise fun j k => s.sourceName j.path ≠ s.sourceName k.path := by
    intro rest
    induction rest with
    | nil => exact fun _ _ => List.Pairwise.nil
    | cons j rest ih =>
      intro before hsplit
      refine List.pairwise_cons.mpr ⟨fun k hk => ?_, ih (before ++ [j]) (by simpa using hsplit)⟩
      obtain ⟨mid, after, rfl⟩ := List.append_of_mem hk
      have hsplit' : s.joins = (before ++ j :: mid) ++ k :: after := by simpa using hsplit
      rw [sourceName_of_split hsplit (not_mem_of_nodup_split (hsplit ▸ h)),
        sourceName_of_split hsplit' (not_mem_of_nodup_split (hsplit' ▸ h))]
      exact aliasOf_ne
  exact List.pairwise_map.mpr (hrest s.joins [] rfl)

/-- **An alias stays** when more joins are added. -/
theorem sourceName_of_kept {s s' : Statement E} (hroot : s'.root = s.root)
    (hkept : s.joins <+: s'.joins) (hnodup : (s'.joins.map (·.path)).Nodup)
    (hne : ∀ j ∈ s'.joins, j.path ≠ []) {path : List String} (hpath : path ∈ sources s.joins) :
    s'.sourceName path = s.sourceName path := by
  obtain ⟨more, hmore⟩ := hkept
  rcases List.mem_cons.mp hpath with rfl | hmem
  · have hnew : [] ∉ s'.joins.map (·.path) := by
      intro hmem
      obtain ⟨j, hj, heq⟩ := List.mem_map.mp hmem
      exact hne j hj heq
    have hold : [] ∉ s.joins.map (·.path) := fun hmem => hnew <| by
      rw [← hmore, List.map_append]
      exact List.mem_append_left _ hmem
    rw [sourceName_of_not_mem hnew, sourceName_of_not_mem hold, hroot]
  · obtain ⟨j, hj, rfl⟩ := List.mem_map.mp hmem
    obtain ⟨before, after, hsplit⟩ := List.append_of_mem hj
    have hsplit' : s'.joins = before ++ j :: (after ++ more) := by
      rw [← hmore, hsplit]
      simp
    have hnew := not_mem_of_nodup_split (hsplit' ▸ hnodup)
    rw [sourceName_of_split hsplit hnew, sourceName_of_split hsplit' hnew]

/-! ## Sequences of calls -/

/-- What a statement holds of paths after calls. -/
structure JoinInvariant (root : E) (calls : List Call) (s : Statement E) : Prop where
  root_eq : s.root = root
  joined : JoinedAlong root ((calls.flatMap followed).flatMap prefixes) s.aliases s.joins
  tests_eq : s.restrictions.map Restriction.path? = calls.flatMap tested
  order_eq : s.order.map (·.1.path) = calls.foldl sortedBy []
  reads : s.ReadsSchema

theorem joinInvariant_nil (root : E) : JoinInvariant root [] ({ root := root } : Statement E) :=
  ⟨rfl, ⟨rfl, .nil⟩, rfl, rfl, nofun⟩

namespace JoinInvariant

variable {root : E} {calls : List Call} {s s' : Statement E}

/-- The aliases and the joins have grown side by side. -/
theorem isGrown (h : JoinInvariant root calls s) : s.IsGrown := by
  have hgrown := h.joined.grown
  rwa [← h.root_eq] at hgrown

/-- The aliases are those of the joins. -/
theorem aliases_eq (h : JoinInvariant root calls s) : s.aliases = aliasesOf s.joins :=
  h.joined.grown.aliases_eq

/-- **One call** keeps the joins and adds those of the paths that it names. -/
theorem perform (h : JoinInvariant root calls s) {call : Call} (hcall : s.perform call = .ok s') :
    JoinInvariant root (calls ++ [call]) s' ∧ s.joins <+: s'.joins := by
  have hextends := extends_perform h.isGrown hcall
  have hroot : (cleared s call).root = root := by
    rw [← h.root_eq]
    cases call <;> rfl
  have haliases : (cleared s call).aliases = s.aliases := by cases call <;> rfl
  have hjoins : (cleared s call).joins = s.joins := by cases call <;> rfl
  have htests : (cleared s call).restrictions = s.restrictions := by cases call <;> rfl
  have horder : (cleared s call).order.map (·.1.path) ++ sortedBy [] call =
      sortedBy (s.order.map (·.1.path)) call := by
    cases call <;> simp [cleared, sortedBy]
  refine ⟨⟨hextends.root_eq.trans hroot, ?_, ?_, ?_,
    hextends.reads (readsSchema_cleared h.reads call)⟩, hjoins ▸ hextends.kept⟩
  · have hjoined := hextends.joined _ (by rw [hroot, haliases, hjoins]; exact h.joined)
    rw [hroot] at hjoined
    simpa using hjoined
  · rw [hextends.tests_eq, htests, h.tests_eq]
    simp
  · rw [hextends.order_eq, horder, h.order_eq, List.foldl_append]
    rfl

/-- **Any further calls** do. -/
theorem foldlM_perform (h : JoinInvariant root calls s) {more : List Call}
    (hrun : more.foldlM Statement.perform s = .ok s') :
    JoinInvariant root (calls ++ more) s' ∧ s.joins <+: s'.joins := by
  refine foldlM_run (motive := fun more s s' => ∀ {calls}, JoinInvariant root calls s →
    JoinInvariant root (calls ++ more) s' ∧ s.joins <+: s'.joins) ?_ ?_ hrun h
  · exact fun s calls h => ⟨by rwa [List.append_nil], List.prefix_refl _⟩
  · intro call rest s next s' hnext ih calls h
    obtain ⟨hstep, hkept⟩ := h.perform hnext
    obtain ⟨hend, hkept'⟩ := ih hstep
    exact ⟨by simpa using hend, hkept.trans hkept'⟩

/-- What is joined: the prefixes of the paths that the calls name. -/
theorem mem_joins_iff (h : JoinInvariant root calls s) {path : List String} :
    path ∈ s.joins.map (·.path) ↔
      path ≠ [] ∧ ∃ call ∈ calls, ∃ named ∈ followed call, path <+: named := by
  rw [h.joined.paths_eq, List.mem_eraseDups]
  simp only [List.mem_flatMap, mem_prefixes]
  constructor
  · rintro ⟨named, ⟨call, hcall, hnamed⟩, hne, hpath⟩
    exact ⟨hne, call, hcall, named, hnamed, hpath⟩
  · rintro ⟨hne, call, hcall, named, hnamed, hpath⟩
    exact ⟨named, ⟨call, hcall, hnamed⟩, hne, hpath⟩

/-- Paths that have a table keep one when they are cut short. -/
theorem mem_sources_of_prefix (h : JoinInvariant root calls s) {path longer : List String}
    (hlonger : longer ∈ sources s.joins) (hpath : path <+: longer) : path ∈ sources s.joins := by
  by_cases hne : path = []
  · rw [hne]
    exact List.mem_cons_self
  · rcases List.mem_cons.mp hlonger with rfl | hmem
    · exact absurd (List.prefix_nil.mp hpath) hne
    · obtain ⟨-, call, hcall, named, hnamed, hprefix⟩ := h.mem_joins_iff.mp hmem
      exact List.mem_cons_of_mem _
        (h.mem_joins_iff.mpr ⟨hne, call, hcall, named, hnamed, hpath.trans hprefix⟩)

/-- A path that a call names has a table. -/
theorem mem_sources (h : JoinInvariant root calls s) {call : Call} (hcall : call ∈ calls)
    {path : List String} (hpath : path ∈ followed call) : path ∈ sources s.joins := by
  by_cases hne : path = []
  · rw [hne]
    exact List.mem_cons_self
  · exact List.mem_cons_of_mem _
      (h.mem_joins_iff.mpr ⟨hne, call, hcall, path, hpath, List.prefix_refl _⟩)

/-- **Calls whose paths are joined already** leave the joins as they are. -/
theorem joins_eq (h : JoinInvariant root calls s) {more : List Call}
    (hrun : more.foldlM Statement.perform s = .ok s')
    (hjoined : ∀ call ∈ more, ∀ named ∈ followed call, named ∈ sources s.joins) :
    s'.joins = s.joins := by
  obtain ⟨h', hkept⟩ := h.foldlM_perform hrun
  have hknown : ((more.flatMap followed).flatMap prefixes).removeAll
      ((calls.flatMap followed).flatMap prefixes) = [] := by
    refine List.filter_eq_nil_iff.mpr fun path hpath => ?_
    obtain ⟨named, hnamed, hprefix⟩ := List.mem_flatMap.mp hpath
    obtain ⟨call, hcall, hnamed⟩ := List.mem_flatMap.mp hnamed
    obtain ⟨hne, hprefix⟩ := mem_prefixes.mp hprefix
    have hsource := h.mem_sources_of_prefix (hjoined call hcall named hnamed) hprefix
    have hmem : path ∈ s.joins.map (·.path) := (List.mem_cons.mp hsource).resolve_left hne
    rw [h.joined.paths_eq, List.mem_eraseDups] at hmem
    simp only [List.elem_eq_true_of_mem hmem, Bool.not_true, Bool.false_eq_true, not_false_eq_true]
  have hpaths : s'.joins.map (·.path) = s.joins.map (·.path) := by
    rw [h'.joined.paths_eq, List.flatMap_append, List.flatMap_append, List.eraseDups_append,
      hknown, List.eraseDups_nil, List.append_nil, h.joined.paths_eq]
  have hlength := congrArg List.length hpaths
  rw [List.length_map, List.length_map] at hlength
  exact (hkept.eq_of_length hlength.symm).symm

end JoinInvariant

/-! ## The joins of a collection -/

/-- A join as it is written: a table under its alias, joined to another. -/
def joinedTo (parent table : String) (r : Relationship E) : String :=
  " LEFT OUTER JOIN " ++ Schema.table r.target ++ " AS " ++ table ++ " ON " ++
    if r.toMany then parent ++ "." ++ r.own.name ++ " = " ++ (table ++ "." ++ r.other.name)
    else table ++ "." ++ r.other.name ++ " = " ++ (parent ++ "." ++ r.own.name)

/-- The aliases and the joins of a statement that has answered calls. -/
structure JoinsOf (root : E) (calls : List Call) (s : Statement E) : Prop where
  /-- The paths that have an alias are those that the calls name and their prefixes. -/
  mem_iff : ∀ path, path ∈ s.aliases.map (·.1) ↔
    path ≠ [] ∧ ∃ call ∈ calls, ∃ named ∈ followed call, path <+: named
  /-- They are given in the order in which they are first named. -/
  keys_eq : s.aliases.map (·.1) = ((calls.flatMap followed).flatMap prefixes).eraseDups
  /-- No path is given two. -/
  nodup : (s.aliases.map (·.1)).Nodup
  /-- The statement has one join for each of them and no other, in their order, and what is kept for
  a path is the alias that its join was given. -/
  aliases_eq : s.aliases = s.joins.map fun j => (j.path, ⟨j.path, j.relationship.target⟩)
  /-- Each is joined to the table of the path before it, by a relationship of the model there. -/
  joined_to : ∀ before j after, s.joins = before ++ j :: after →
    ∃ name model, j.path = j.source ++ [name] ∧ LeadsTo root before j.source model ∧
      Schema.relationship? model name = some j.relationship ∧
      s.joinText j = joinedTo (s.sourceName j.source) (s.sourceName j.path) j.relationship
  /-- No two aliases have one name. -/
  names : (s.aliases.map fun e => s.sourceName e.2.path).Nodup
  /-- The joins are written in this order, right behind the table of the root, and behind them there
  are only conditions, an order and a window. -/
  written : s.text = "SELECT " ++ Value.commaList ((Schema.columns root).map fun c =>
      s.columnText [] c.name) ++ " FROM " ++ Schema.table root ++
    String.join (s.joins.map s.joinText) ++ clauseText "WHERE" " AND " s.conditionsText ++
    clauseText "ORDER BY" ", " (s.order.map fun o => s.refText o.1 ++ " " ++ directionText o.2) ++
    (if s.hasWindow then " LIMIT ? OFFSET ?" else "")
  /-- So a join is written once for each alias, and nowhere else in the text. -/
  written_once : Schema.HasPlainNames E → joinWords s.text = s.aliases.length
  /-- Restrictions read columns through the paths that their calls name. -/
  tests_eq : s.restrictions.map Restriction.path? = calls.flatMap tested
  /-- So do the clauses of the order. -/
  order_eq : s.order.map (·.1.path) = calls.foldl sortedBy []
  /-- All these paths are the root's or have an alias, and it is read from that. -/
  reads : ∀ path, some path ∈ calls.flatMap tested ∨ path ∈ calls.foldl sortedBy [] →
    path = [] ∨ ∃ model, (path, ⟨path, model⟩) ∈ s.aliases

/-- What further calls leave of the aliases and the joins of a statement. -/
structure JoinsKept (more : List Call) (s s' : Statement E) : Prop where
  /-- The aliases stay, and others are added behind them. -/
  aliases_kept : s.aliases <+: s'.aliases
  /-- So do the joins. -/
  kept : s.joins <+: s'.joins
  /-- A table keeps its name. -/
  sourceName_eq : ∀ path ∈ sources s.joins, s'.sourceName path = s.sourceName path
  /-- A column is read from the table that its path was given first. -/
  refText_eq : ∀ ref : ColumnRef, ref.path ∈ sources s.joins →
    s'.refText ref = s.sourceName ref.path ++ "." ++ ref.column.name
  /-- None is added by calls that name no path but those that have an alias. -/
  joins_eq : (∀ call ∈ more, ∀ named ∈ followed call,
      named = [] ∨ named ∈ s.aliases.map (·.1)) →
    s'.aliases = s.aliases ∧ s'.joins = s.joins

/-- A restriction reads the root or through a path that its call names. -/
theorem eq_nil_or_mem_followed {call : Call} {path : List String} (h : some path ∈ tested call) :
    path = [] ∨ path ∈ followed call := by
  cases call with
  | restrict criteria equations =>
    rcases List.mem_append.mp h with h | h
    · obtain ⟨criterion, -, hpath⟩ := List.mem_map.mp h
      cases criterion with
      | column name op operand => exact Or.inl (Option.some.inj hpath).symm
      | test holds => cases hpath
      | given v => cases hpath
    · obtain ⟨e, he, hpath⟩ := List.mem_map.mp h
      exact Or.inr (List.mem_map.mpr ⟨e, he, Option.some.inj hpath⟩)
  | compare name operator bound =>
    exact Or.inr (List.mem_singleton.mpr (Option.some.inj (List.mem_singleton.mp h)))
  | _ => cases h

/-- A statement sorts through paths that its calls name. -/
theorem mem_followed_of_mem_foldl {calls : List Call} {path : List String} :
    ∀ {order : List (List String)}, path ∈ calls.foldl sortedBy order →
      path ∈ order ∨ ∃ call ∈ calls, path ∈ followed call := by
  induction calls with
  | nil => exact fun h => Or.inl h
  | cons call rest ih =>
    intro order h
    rcases ih h with h | ⟨later, hlater, h⟩
    · cases call with
      | orderBy clauses =>
        rcases List.mem_append.mp h with h | h
        · exact Or.inl h
        · exact Or.inr ⟨_, List.mem_cons_self, h⟩
      | reorder clauses => exact Or.inr ⟨_, List.mem_cons_self, h⟩
      | _ => exact Or.inl h
    · exact Or.inr ⟨later, List.mem_cons_of_mem _ hlater, h⟩

namespace JoinInvariant

variable {root : E} {calls : List Call} {s s' : Statement E}

theorem keys_eq (h : JoinInvariant root calls s) : s.aliases.map (·.1) = s.joins.map (·.path) := by
  rw [h.aliases_eq, map_fst_aliasesOf]

/-- A path that is read has a table. -/
theorem mem_sources_of_reads (h : JoinInvariant root calls s) {path : List String}
    (hpath : some path ∈ calls.flatMap tested ∨ path ∈ calls.foldl sortedBy []) :
    path ∈ sources s.joins := by
  rcases hpath with htest | horder
  · obtain ⟨call, hcall, htest⟩ := List.mem_flatMap.mp htest
    rcases eq_nil_or_mem_followed htest with rfl | hnamed
    · exact List.mem_cons_self
    · exact h.mem_sources hcall hnamed
  · rcases mem_followed_of_mem_foldl horder with hnone | ⟨call, hcall, hnamed⟩
    · cases hnone
    · exact h.mem_sources hcall hnamed

/-- A path that has a table is the root's or has an alias of its own. -/
theorem eq_nil_or_mem_aliases (h : JoinInvariant root calls s) {path : List String}
    (hpath : path ∈ sources s.joins) :
    path = [] ∨ ∃ model, (path, ⟨path, model⟩) ∈ s.aliases := by
  rcases List.mem_cons.mp hpath with rfl | hmem
  · exact .inl rfl
  · obtain ⟨j, hj, rfl⟩ := List.mem_map.mp hmem
    rw [h.aliases_eq]
    exact .inr ⟨_, List.mem_map_of_mem hj⟩

theorem joinsOf (h : JoinInvariant root calls s) : JoinsOf root calls s where
  mem_iff path := by
    rw [h.keys_eq]
    exact h.mem_joins_iff
  keys_eq := h.keys_eq.trans h.joined.paths_eq
  nodup := h.keys_eq ▸ h.joined.grown.nodup
  aliases_eq := h.aliases_eq
  joined_to before j after hsplit := by
    obtain ⟨name, model, hpath, hleads, hr⟩ := h.joined.grown.exists_of_split hsplit
    exact ⟨name, model, hpath, hleads, hr, rfl⟩
  names := by
    rw [h.aliases_eq, aliasesOf, List.map_map]
    exact nodup_sourceName h.joined.grown.nodup
  written := by
    rw [← h.root_eq]
    rfl
  written_once hnames := by
    rw [joinWords_text hnames h.isGrown h.reads, h.aliases_eq, aliasesOf, List.length_map]
  tests_eq := h.tests_eq
  order_eq := h.order_eq
  reads path hpath := h.eq_nil_or_mem_aliases (h.mem_sources_of_reads hpath)

theorem joinsKept (h : JoinInvariant root calls s) {more : List Call}
    (hrun : more.foldlM Statement.perform s = .ok s') : JoinsKept more s s' := by
  obtain ⟨h', hkept⟩ := h.foldlM_perform hrun
  have hsource : ∀ path ∈ sources s.joins, s'.sourceName path = s.sourceName path :=
    fun path hpath => sourceName_of_kept (h'.root_eq.trans h.root_eq.symm) hkept
      h'.joined.grown.nodup (fun _ => h'.joined.grown.path_ne_nil) hpath
  refine ⟨?_, hkept, hsource, fun ref href => ?_, fun hnamed => ?_⟩
  · rw [h.aliases_eq, h'.aliases_eq]
    exact hkept.map _
  · rw [refText, columnText, hsource ref.path href]
  · rw [h.keys_eq] at hnamed
    have hjoins := h.joins_eq hrun fun call hcall named hfollowed =>
      List.mem_cons.mpr (hnamed call hcall named hfollowed)
    exact ⟨by rw [h'.aliases_eq, hjoins, ← h.aliases_eq], hjoins⟩

end JoinInvariant

/-- **The joins of a sequence of calls.** Whatever a collection of all records of a model has been
asked for, the paths that have an alias are the prefixes of the paths that the calls have named, each
once and in the order in which they were first named. The statement has the joins of these paths and
no others, each to the table of the path before it, under the alias that is kept for the path and
that has a name of its own, and is written with one join for each alias. Restrictions and order read
columns from the aliases of their paths. Further calls keep the aliases, the joins and their names,
and add none if the paths that they name have an alias. -/
theorem joins_of_calls {db : Database E} {root : E} {calls : List Call} {q : TableQuery E}
    (h : calls.foldlM (fun q call => TableQuery.perform call q) (TableQuery.all db root) = .ok q) :
    JoinsOf root calls q.statement ∧
      ∀ {more : List Call} {q' : TableQuery E},
        more.foldlM (fun q call => TableQuery.perform call q) q = .ok q' →
          JoinsKept more q.statement q'.statement := by
  have hinvariant : JoinInvariant root calls q.statement :=
    ((joinInvariant_nil root).foldlM_perform (statement_of_calls h)).1
  exact ⟨hinvariant.joinsOf, fun hmore => hinvariant.joinsKept (statement_of_calls hmore)⟩

/-- The names of the sample schema are plain. -/
theorem hasPlainNames_entity : Schema.HasPlainNames Entity where
  table model := by cases model <;> decide
  column := by
    rintro c ⟨model, hc | ⟨entry, hentry, rfl | rfl⟩⟩
    · revert c
      cases model <;> decide
    · revert entry
      cases model <;> decide
    · revert entry
      cases model <;> decide

/-- Calls that name a mentor's mentor, an address and books, some of them twice. -/
def namingCalls : List Call :=
  [.restrict [.column "age" .ge (.int 18)] [("mentor.mentor.age", .int 41)],
    .compare (.str "mentor.age") (.str "gt") (.int 20),
    .leftJoin [.str "address"],
    .orderBy [.tuple [.str "books.title", .str "asc"]],
    .reorder [.tuple [.str "address.city", .str "desc"], .tuple [.str "id", .str "asc"]],
    .limit (.int 2)]

theorem joins_of_namingCalls :
    ∃ q : TableQuery Entity,
      namingCalls.foldlM (fun q call => TableQuery.perform call q)
        (TableQuery.all Entity.sample .user) = .ok q ∧
      q.statement.joins.map (fun j => (j.path, q.statement.sourceName j.path)) =
        [(["mentor"], "users_1"), (["mentor", "mentor"], "users_2"), (["address"], "addresses_1"),
          (["books"], "books_1")] ∧
      joinWords q.statement.text = 4 ∧
      JoinsOf .user namingCalls q.statement ∧
      ∀ {more : List Call} {q' : TableQuery Entity},
        more.foldlM (fun q call => TableQuery.perform call q) q = .ok q' →
          JoinsKept more q.statement q'.statement := by
  have hjoins := @joins_of_calls Entity _ Entity.sample .user namingCalls _ rfl
  refine ⟨_, rfl, rfl, ?_, hjoins⟩
  exact hjoins.1.written_once hasPlainNames_entity

end ResourceQuery.Sql
