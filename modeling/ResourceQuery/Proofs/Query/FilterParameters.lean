import Mathlib.Data.List.Forall2
import ResourceQuery.Collection.Recorder
import ResourceQuery.Proofs.Value.Lookup
import ResourceQuery.Query.Stages

/-!
# What filters see of a request

A rule reads the request at its own parameter, and there only up to presence. Where the rule asks
for absent values as well, a parameter that is given but blank is told from one that is missing;
nothing else is.

Headlines:
* **`FilterRule.Agree`**: two requests are the same to a rule.
* **`FilterRule.run_congr`**: then the rule does the same, whatever its strategy and guards are.
* **`FilterRule.agree_filter`**, **`agree_of_perm`**, **`agree_of_respelt`**: requests that are the
  same to a rule: without what is not registered, in another order, with blank values spelt
  differently.
* **`QueryRules.filter_of_registered`**: the filter stage sees registered parameters only.
-/

namespace ResourceQuery

variable {C : Type} {fs gs : List (Value × Value)}

/-! ## Maps -/

namespace Value

/-- No two keys are equal, as in every map. -/
def HaveDistinctKeys (entries : List (Value × Value)) : Prop :=
  entries.Pairwise fun a b => a.1.same b.1 = false

/-- The same key, and the same value unless both are blank. -/
def Respelt (a b : Value × Value) : Prop := a.1 = b.1 ∧ a.2.presence = b.2.presence

/-- At most one key counts as a text. -/
theorem HaveDistinctKeys.texts (h : HaveDistinctKeys fs) :
    fs.Pairwise fun a b => ∀ s, a.1.text? = some s → b.1.text? ≠ some s :=
  List.Pairwise.imp (fun hne s ha hb => by simp [same_of_text? ha hb] at hne) h

/-- What is found does not depend on the order of the entries. -/
theorem lookup?_of_perm {name : String} (hperm : fs.Perm gs)
    (h : fs.Pairwise fun a b => ∀ s, a.1.text? = some s → b.1.text? ≠ some s) :
    lookup? name fs = lookup? name gs := by
  induction hperm with
  | nil => rfl
  | cons e _ ih => simp [lookup?, ih (List.pairwise_cons.mp h).2]
  | swap a b rest =>
    have hba := (List.pairwise_cons.mp h).1 a List.mem_cons_self name
    by_cases hb : b.1.text? = some name
    · simp [lookup?, hb, hba hb]
    · simp [lookup?, hb]
  | trans hfirst _ ih₁ ih₂ =>
    exact (ih₁ h).trans (ih₂ (hfirst.pairwise h fun hab s hb ha => hab s ha hb))

/-- What is found under a text is among the entries that are kept, if its keys are. -/
theorem lookup?_filter {name : String} {keep : Value × Value → Bool}
    (h : ∀ e ∈ fs, e.1.text? = some name → keep e = true) :
    lookup? name (fs.filter keep) = lookup? name fs := by
  induction fs with
  | nil => rfl
  | cons e rest ih =>
    rw [List.forall_mem_cons] at h
    by_cases hkeep : keep e = true
    · simp [List.filter_cons_of_pos hkeep, lookup?, ih h.2]
    · have hname : e.1.text? ≠ some name := fun hname => hkeep (h.1 hname)
      simp [List.filter_cons_of_neg hkeep, lookup?, hname, ih h.2]

/-- Values that are spelt in another way are found at the same texts, and their presence is the
same. -/
theorem lookup?_of_respelt (name : String) (h : List.Forall₂ Respelt fs gs) :
    Option.Rel (fun v w => v.presence = w.presence) (lookup? name fs) (lookup? name gs) := by
  induction h with
  | nil => exact .none
  | @cons a b _ _ hab _ ih =>
    rw [lookup?, lookup?, ← hab.1]
    by_cases hname : a.1.text? = some name
    · rw [if_pos hname, if_pos hname]
      exact .some hab.2
    · rw [if_neg hname, if_neg hname]
      exact ih

end Value

/-! ## Rules -/

namespace FilterRule

variable {r : FilterRule C}

/-- Two requests are the same to a rule: the presence of its parameter is the same and, where the
rule asks for absent values without a guard, the parameter is given in both or in neither. -/
structure Agree (r : FilterRule C) (fs gs : List (Value × Value)) : Prop where
  presence : ((Value.lookup? r.parameter fs).getD .null).presence =
    ((Value.lookup? r.parameter gs).getD .null).presence
  isSome : r.allowNil = true → r.guards = [] →
    (Value.lookup? r.parameter fs).isSome = (Value.lookup? r.parameter gs).isSome

theorem Agree.of_lookup? (h : Value.lookup? r.parameter fs = Value.lookup? r.parameter gs) :
    r.Agree fs gs := by
  constructor
  · rw [h]
  · intro _ _
    rw [h]

/-- A rule does not see parameters that are not registered. -/
theorem agree_filter {keep : Value × Value → Bool}
    (h : ∀ e ∈ fs, e.1.text? = some r.parameter → keep e = true) : r.Agree (fs.filter keep) fs :=
  .of_lookup? (Value.lookup?_filter h)

/-- A rule does not see the order of the parameters. -/
theorem agree_of_perm (hperm : fs.Perm gs) (h : Value.HaveDistinctKeys fs) : r.Agree fs gs :=
  .of_lookup? (Value.lookup?_of_perm hperm h.texts)

/-- A rule does not see how a blank value is spelt. -/
theorem agree_of_respelt (h : List.Forall₂ Value.Respelt fs gs) : r.Agree fs gs := by
  have hlookup := Value.lookup?_of_respelt r.parameter h
  constructor
  · cases hfs : Value.lookup? r.parameter fs <;> cases hgs : Value.lookup? r.parameter gs <;>
      simp_all
  · intro _ _
    cases hfs : Value.lookup? r.parameter fs <;> cases hgs : Value.lookup? r.parameter gs <;>
      simp_all

/-- **A rule does the same on requests that are the same to it**, whatever its strategy and its
guards are. -/
theorem run_congr [Collection C] (h : r.Agree fs gs) (c : Selection C) :
    r.run fs c = r.run gs c := by
  have hquery : r.query fs = r.query gs := h.presence
  have henabled (query : Value) (object : Option (StrategyObject C)) :
      r.isEnabled fs query object = r.isEnabled gs query object := by
    unfold isEnabled
    -- guards see the query alone; without any, a missing parameter matters to rules for absence
    by_cases hguards : r.guards = []
    · cases hnil : r.allowNil with
      | false => rfl
      | true => rw [h.isSome hnil hguards]
    · rw [if_neg (by simpa using hguards), if_neg (by simpa using hguards)]
  unfold run
  simp only [hquery, henabled]

end FilterRule

/-! ## The stage -/

namespace QueryRules

variable {rules : QueryRules C}

theorem filterEntries_map (entries : List (Value × Value)) :
    filterEntries (.map entries) = .ok entries := by
  cases entries <;> rfl

/-- Is a parameter registered? -/
def registers (rules : QueryRules C) (parameter : Value × Value) : Bool :=
  rules.filters.any fun r => parameter.1.text? == some r.parameter

variable [Collection C]

/-- The rules run on the parameters one after the other. -/
theorem filter_map (entries : List (Value × Value)) (c : Selection C) :
    rules.filter (.map entries) c = rules.filters.foldlM (fun c r => r.run entries c) c := by
  have hread (r : FilterRule C) (c : Selection C) :
      (Traced.ofExcept (filterEntries (.map entries)) >>= fun entries => r.run entries c) =
        r.run entries c := by
    rw [filterEntries_map]
    exact pure_bind entries fun entries => r.run entries c
  simp only [filter, hread]

/-- Requests that are the same to every rule are the same to the stage. -/
theorem filter_congr (h : ∀ r ∈ rules.filters, r.Agree fs gs) (c : Selection C) :
    rules.filter (.map fs) c = rules.filter (.map gs) c := by
  rw [filter_map, filter_map]
  generalize rules.filters = filters at h
  induction filters generalizing c with
  | nil => rfl
  | cons r rest ih =>
    rw [List.forall_mem_cons] at h
    rw [List.foldlM_cons, List.foldlM_cons, FilterRule.run_congr h.1]
    exact bind_congr fun c => ih c h.2

/-- **The filter stage sees registered parameters only**, and of these their presence: requests
that are the same to every rule lead to the same result, by the same calls on the way. So whatever
is not registered, the order of the parameters and the spelling of blank values make no
difference. -/
theorem filter_of_registered (rules : QueryRules C) (c : Selection C) :
    (∀ fs gs, (∀ r ∈ rules.filters, r.Agree fs gs) →
      rules.filter (.map fs) c = rules.filter (.map gs) c) ∧
    (∀ fs, rules.filter (.map (fs.filter rules.registers)) c = rules.filter (.map fs) c) ∧
    (∀ fs gs, fs.Perm gs → Value.HaveDistinctKeys fs →
      rules.filter (.map fs) c = rules.filter (.map gs) c) ∧
    (∀ fs gs, List.Forall₂ Value.Respelt fs gs →
      rules.filter (.map fs) c = rules.filter (.map gs) c) := by
  refine ⟨fun fs gs h => filter_congr h c, fun fs => filter_congr (fun r hr => ?_) c, ?_, ?_⟩
  · refine FilterRule.agree_filter fun e _ hname => List.any_eq_true.mpr ⟨r, hr, ?_⟩
    rw [hname, beq_self_eq_true]
  · exact fun fs gs hperm hkeys =>
      filter_congr (fun r _ => FilterRule.agree_of_perm hperm hkeys) c
  · exact fun fs gs h => filter_congr (fun r _ => FilterRule.agree_of_respelt h) c

/-- A search by title that starts with three letters, a team that may be none, and an age. -/
def searchRules : QueryRules Recorder where
  filters := [
    { name := "q", parameter := "title", allowNil := false
      strategy := .cls {
        name := "Search", shape := .filter, constants := []
        body? := some fun given c => Collection.perform (.restrict [] [("title", given.query)]) c
        checks := [("isLong", fun v => .ok (.bool (3 ≤ (v.text?.getD "").length)))] }
      guards := [⟨.named "isLong", true⟩] },
    { name := "team", parameter := "group", allowNil := true, guards := []
      strategy := .equality "team" },
    { name := "age", parameter := "age", allowNil := false, guards := []
      strategy := .equality "age" }]

/-- The title is long enough, any team is asked for, and no age is. -/
theorem filter_searchRules :
    let fs : List (Value × Value) := [(.str "sort", .str "age"), (.str "group", .str "  "),
      (.int 1, .int 2), (.str "title", .str "lean"), (.str "age", .list [])]
    let gs : List (Value × Value) := [(.str "title", .str "lean"), (.str "age", .null),
      (.str "group", .bool false)]
    searchRules.filter (.map fs) (.live ⟨0, []⟩) = searchRules.filter (.map gs) (.live ⟨0, []⟩) ∧
      (searchRules.filter (.map gs) (.live ⟨0, []⟩)).accesses =
        [.apply (.ofCall (.restrict [] [("title", .str "lean")])),
          .apply (.ofCall (.restrict [] [("team", .null)]))] := by
  intro fs gs
  refine ⟨(filter_of_registered searchRules (.live ⟨0, []⟩)).1 fs gs fun r hr => ?_, by cbv⟩
  simp only [searchRules, List.mem_cons, List.not_mem_nil, or_false] at hr
  rcases hr with rfl | rfl | rfl
  · exact ⟨rfl, fun h => by cases h⟩
  · exact ⟨rfl, fun _ _ => rfl⟩
  · exact ⟨rfl, fun h => by cases h⟩

end QueryRules

end ResourceQuery
