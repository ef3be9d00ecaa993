import ResourceQuery.Proofs.Pagination.Refusals
import ResourceQuery.Proofs.Query.Stages

/-!
# Logs that can be written down

Whoever writes the log down has to write the numbers of a page, and these may have too many digits.
No other event is in the way, and no collection in memory logs anything, so a request of a plain
table is only ever in the way with the one event of its page.

Headlines:
* **`Traced.IsWritable`**, **`Traced.IsWritable.bind`**: logs that can be written, and sequences.
* **`isWritable_sort`**, **`isWritable_includeRequested`**, **`isWritable_filter`**: the stages
  ahead of paging.
* **`Pagination.Pager.event?`**, **`isWritable_paginate_iff`**: the page.
-/

namespace ResourceQuery

/-! ## Sequences -/

namespace Traced

variable {α β : Type}

/-- Can the log of a computation be written down? -/
def IsWritable (x : Traced α) : Prop := ∀ e ∈ x.entries, e.isWritable = true

theorem isWritable_ofExcept (r : Except QueryError α) : (ofExcept r).IsWritable :=
  fun _ he => by cases he

theorem isWritable_pure (a : α) : (pure a : Traced α).IsWritable := isWritable_ofExcept (.ok a)

theorem isWritable_fail (e : QueryError) : (fail e : Traced α).IsWritable :=
  isWritable_ofExcept (.error e)

theorem isWritable_log {event : LogEvent} : (log event).IsWritable ↔ event.isWritable = true := by
  constructor
  · exact fun h => h _ List.mem_cons_self
  · intro h e he
    rw [List.mem_singleton.mp he]
    exact h

/-- The log of a sequence is that of its parts, up to the one that fails. -/
theorem isWritable_bind_iff {x : Traced α} {f : α → Traced β} :
    (x >>= f).IsWritable ↔ x.IsWritable ∧ ∀ a, x.result = .ok a → (f a).IsWritable := by
  cases h : x.result with
  | error e =>
    rw [bind_of_error h]
    exact ⟨fun hx => ⟨hx, nofun⟩, fun hx => hx.1⟩
  | ok a =>
    rw [bind_of_ok h]
    unfold IsWritable
    simp only [List.forall_mem_append]
    constructor
    · rintro ⟨hx, hf⟩
      refine ⟨hx, ?_⟩
      rintro b ⟨⟩
      exact hf
    · rintro ⟨hx, hf⟩
      exact ⟨hx, hf a rfl⟩

theorem IsWritable.bind {x : Traced α} {f : α → Traced β} (hx : x.IsWritable)
    (hf : ∀ a, (f a).IsWritable) : (x >>= f).IsWritable :=
  isWritable_bind_iff.mpr ⟨hx, fun a _ => hf a⟩

/-- A computation of which nothing is logged in the end, whatever it was that came before. -/
theorem isWritable_bind_of_forall {x : Traced α} {f : α → Traced β}
    (hf : ∀ a, (f a).IsWritable) : (x >>= f).IsWritable ↔ x.IsWritable :=
  isWritable_bind_iff.trans ⟨And.left, fun hx => ⟨hx, fun a _ => hf a⟩⟩

/-- What follows a result on the way to which the log could be written. -/
theorem isWritable_bind_of_ok {x : Traced α} (hx : x.IsWritable) {a : α} (h : x.result = .ok a)
    {f : α → Traced β} : (x >>= f).IsWritable ↔ (f a).IsWritable := by
  rw [isWritable_bind_iff]
  constructor
  · exact fun hf => hf.2 a h
  · intro hf
    refine ⟨hx, fun b hb => ?_⟩
    cases h.symm.trans hb
    exact hf

theorem isWritable_bind_of_error {x : Traced α} (hx : x.IsWritable) {e : QueryError}
    (h : x.result = .error e) {f : α → Traced β} : (x >>= f).IsWritable := by
  refine isWritable_bind_iff.mpr ⟨hx, fun a ha => ?_⟩
  cases h.symm.trans ha

theorem isWritable_foldlM {xs : List α} {f : β → α → Traced β}
    (h : ∀ x ∈ xs, ∀ b, (f b x).IsWritable) (b : β) : (xs.foldlM f b).IsWritable := by
  induction xs generalizing b with
  | nil => exact isWritable_pure b
  | cons x rest ih =>
    rw [List.forall_mem_cons] at h
    rw [List.foldlM_cons]
    exact (h.1 b).bind fun next => ih h.2 next

theorem all_entries_eq_true_iff {x : Traced α} :
    x.entries.all (·.isWritable) = true ↔ x.IsWritable :=
  List.all_eq_true

theorem result_written_of_not_isWritable {x : Traced α} (h : ¬ x.IsWritable) :
    x.written.result = .error (.invalidValue (.tooManyDigits none)) := by
  rw [← all_entries_eq_true_iff] at h
  rw [written, if_neg h]

end Traced

namespace Session

variable {α β : Type} {before : Option Pagination.Details}

/-- A computation whose log can be written down. -/
theorem written_of_isWritable {x : Session α} (h : (x before).1.IsWritable) :
    x.written before = x before :=
  if_pos (Traced.all_entries_eq_true_iff.mpr h)

/-- A computation whose log cannot. -/
theorem result_written_of_not_isWritable {x : Session α} (h : ¬ (x before).1.IsWritable) :
    (x.written before).1.result = .error (.invalidValue (.tooManyDigits none)) := by
  have hall := fun hall => h (Traced.all_entries_eq_true_iff.mp hall)
  have hwritten : x.written before = ((x before).1.written, before) := if_neg hall
  rw [hwritten]
  exact Traced.result_written_of_not_isWritable h

theorem isWritable_bind_iff {x : Session α} {f : α → Session β} :
    ((x >>= f) before).1.IsWritable ↔ (x before).1.IsWritable ∧
      ∀ a, (x before).1.result = .ok a → (f a (x before).2).1.IsWritable := by
  cases h : (x before).1.result with
  | error e =>
    rw [run_bind_of_error h]
    exact ⟨fun hx => ⟨hx, nofun⟩, fun hx => hx.1⟩
  | ok a =>
    rw [run_bind_of_ok h]
    unfold Traced.IsWritable
    simp only [List.forall_mem_append]
    constructor
    · rintro ⟨hx, hf⟩
      refine ⟨hx, ?_⟩
      rintro b ⟨⟩
      exact hf
    · rintro ⟨hx, hf⟩
      exact ⟨hx, hf a rfl⟩

end Session

/-! ## Stages ahead of paging -/

open Traced

/-- A collection in memory logs nothing. -/
theorem isWritable_perform (call : Call) (s : Selection Memory) :
    (Collection.perform call s).IsWritable := by
  cases s with
  | live m => exact (isWritable_ofExcept (m.perform call)).bind fun _ => isWritable_pure _
  | given v => exact isWritable_fail _

namespace QueryRules

variable {rules : QueryRules Memory} {settings : Settings}

theorem isWritable_sortBy (h : rules.SortsUsually) (s : Selection Memory) (param : SortParam) :
    (rules.sortBy s param).IsWritable := by
  refine (isWritable_log.mpr rfl).bind fun _ => ?_
  unfold findSort
  cases hstatic : rules.sorts.get? param.name with
  | none =>
    rw [h.dynamicSorts]
    exact isWritable_pure s
  | some strategy =>
    rw [h.sorts param.name strategy hstatic]
    exact isWritable_perform _ s

theorem isWritable_dropOrder (settings : Settings) (s : Selection Memory) :
    (dropOrder settings s).IsWritable := by
  unfold dropOrder
  split
  · exact isWritable_perform _ s
  · exact isWritable_pure s

theorem isWritable_requestedOrder (h : rules.SortsUsually) (params : List SortParam)
    (s : Selection Memory) : (rules.requestedOrder settings params s).IsWritable := by
  unfold requestedOrder
  split
  · exact isWritable_pure s
  · next usual husual =>
    obtain ⟨clauses, rfl⟩ := h.defaultSort usual husual
    refine (isWritable_dropOrder settings s).bind fun dropped => ?_
    exact (isWritable_log.mpr rfl).bind fun _ => isWritable_perform _ dropped
  · exact (isWritable_dropOrder settings s).bind fun dropped =>
      isWritable_foldlM (fun param _ s => isWritable_sortBy h s param) dropped

/-- **The sort stage** logs names only. -/
theorem isWritable_sort (h : rules.SortsUsually) (raw : Value) (s : Selection Memory) :
    (rules.sort settings raw s).IsWritable := by
  refine (isWritable_ofExcept _).bind fun params => (isWritable_ofExcept _).bind fun _ => ?_
  refine (isWritable_requestedOrder h params s).bind fun ordered => ?_
  exact (isWritable_log.mpr rfl).bind fun _ => isWritable_perform _ ordered

end QueryRules

/-- **The include stage** logs specifications only. -/
theorem isWritable_includeRequested (raw : Value) (s : Selection Memory) :
    (includeRequested raw s).IsWritable := by
  refine (isWritable_ofExcept _).bind fun specs => ?_
  split
  · exact isWritable_pure s
  · exact (isWritable_log.mpr rfl).bind fun _ => isWritable_perform _ s

/-- Without an object of a class nothing is logged by a guard. -/
theorem Guard.isWritable_passes (g : Guard) (query : Value) :
    (g.passes query (none : Option (StrategyObject Memory))).IsWritable := by
  refine IsWritable.bind ?_ fun _ => isWritable_pure _
  cases g.condition with
  | always answer => exact isWritable_pure _
  | predicate answer => exact isWritable_ofExcept _
  | named check => exact isWritable_fail _

theorem FilterRule.isWritable_allPass (query : Value) (guards : List Guard) :
    (FilterRule.allPass query (none : Option (StrategyObject Memory)) guards).IsWritable := by
  induction guards with
  | nil => exact isWritable_pure true
  | cons g rest ih =>
    rw [FilterRule.allPass]
    refine (g.isWritable_passes query).bind fun answer => ?_
    split
    · exact ih
    · exact isWritable_pure false

theorem FilterRule.isWritable_run {r : FilterRule Memory} (h : r.strategy = .equality r.name)
    (entries : List (Value × Value)) (s : Selection Memory) : (r.run entries s).IsWritable := by
  have hobject : r.object? (r.query entries) s = .ok none := by
    rw [FilterRule.object?, h, Strategy.equality]
  unfold FilterRule.run
  refine (isWritable_bind_of_ok (isWritable_ofExcept _) (a := none) hobject).mpr ?_
  have henabled : (r.isEnabled entries (r.query entries) none).IsWritable := by
    unfold FilterRule.isEnabled
    split
    · exact isWritable_pure _
    · exact FilterRule.isWritable_allPass _ _
  refine henabled.bind fun answer => ?_
  split
  · rw [h]
    exact (isWritable_log.mpr rfl).bind fun _ => isWritable_perform _ s
  · exact (isWritable_log.mpr rfl).bind fun _ => isWritable_pure s

/-- **The filter stage** logs names and queries only. -/
theorem QueryRules.isWritable_filter {rules : QueryRules Memory}
    (h : ∀ r ∈ rules.filters, r.strategy = .equality r.name) (raw : Value) (s : Selection Memory) :
    (rules.filter raw s).IsWritable :=
  isWritable_foldlM (fun r hr s => (isWritable_ofExcept _).bind fun entries =>
    FilterRule.isWritable_run (h r hr) entries s) s

/-! ## The page -/

namespace Pagination.Pager

variable {p : Pager} {entries : List (Value × Value)} {m : Memory}

/-- The event of a page whose numbers are known: that of a page whose fields can be read, and that
is not after the last one where the records are counted. -/
def event? (kind : Paginator) (settings : Settings) (page : List (Value × Value)) (records : Nat) :
    Option LogEvent :=
  match kind, PageFields.read page with
  | .page, .ok f =>
    let w := PageWindow.ofFields settings f
    let last := lastPage records (pageSize settings f)
    if last < w.number then none
    else some (.pagingNumbered w.number last w.start w.size.truncate)
  | .countless, .ok f =>
    let w := PageWindow.ofFields settings f
    some (.pagingCountless w.number w.start w.size.truncate)
  | _, _ => none

theorem isWritable_count (s : Selection Memory) : (Collection.count s).IsWritable := by
  cases s with
  | live m => exact isWritable_ofExcept m.size
  | given v => exact isWritable_fail _

theorem isWritable_all (s : Selection Memory) : (Collection.all s).IsWritable := by
  cases s with
  | live m => exact isWritable_ofExcept m.rows
  | given v => exact isWritable_fail _

theorem isWritable_window (offset size : Quantity) (s : Selection Memory) :
    (window offset size s).IsWritable :=
  (isWritable_perform _ s).bind fun opened => isWritable_perform _ opened

theorem isWritable_keysetRecords (k : KeysetInfo) (s : Selection Memory) :
    (keysetRecords k s).IsWritable := by
  unfold keysetRecords
  split
  · exact isWritable_pure s
  · exact isWritable_pure s
  · next column hempty hcolumn =>
    have hlast (beyond : Selection Memory) : (Traced.log
        (.pagingKeyset column k.seek.name k.position) >>= fun _ =>
          Collection.perform (.limit k.limit.toValue) beyond).IsWritable :=
      (isWritable_log.mpr rfl).bind fun _ => isWritable_perform _ beyond
    refine (isWritable_perform _ s).bind fun ordered => ?_
    split
    · exact (isWritable_perform _ ordered).bind hlast
    · exact (isWritable_pure ordered).bind hlast

/-- A numbered page is only logged by its event. -/
theorem isWritable_beginPage_iff {records : List Value} (hsettings : p.settings.IsTyped)
    (hrecords : m.sorted = .ok records) (hcount : records.length ≤ 2 ^ 53) :
    (p.beginPage entries (Selection.live m)).IsWritable ↔
      ∀ event, event? .page p.settings (pageEntries entries) records.length = some event →
        event.isWritable = true := by
  have hfields := isWritable_ofExcept (PageFields.read (pageEntries entries))
  unfold beginPage event?
  cases hread : PageFields.read (pageEntries entries) with
  | error e =>
    rw [hread] at hfields
    exact iff_of_true (isWritable_bind_of_error hfields rfl) nofun
  | ok f =>
    obtain ⟨matching, hmatching, hperm⟩ := perm_of_sorted hrecords
    obtain ⟨pages, hpages, hlast⟩ :=
      pages?_eq_lastPage hsettings (PageFields.bounds_of_read hread) hcount
    have hoffset := PageWindow.offset?_of_integer (PageWindow.isInteger_size (f := f) hsettings)
    have hsize : (Collection.count (Selection.live m)).result = .ok (records.length : Int) := by
      rw [Selection.result_count_live hmatching, hperm.length_eq]
    rw [hread] at hfields
    rw [isWritable_bind_of_ok hfields rfl, isWritable_bind_of_ok (isWritable_count _) hsize,
      isWritable_bind_of_ok (isWritable_ofExcept _) (a := pages) (by rw [hpages]; rfl)]
    simp only [hlast]
    split
    · exact iff_of_true (isWritable_fail _) nofun
    · rw [isWritable_bind_of_ok (isWritable_ofExcept _) (a := .whole _) (by rw [hoffset]; rfl),
        isWritable_bind_of_forall, isWritable_log]
      · exact ⟨fun h event hevent => Option.some.inj hevent ▸ h, fun h => h _ rfl⟩
      · exact fun _ => (isWritable_window _ _ _).bind fun _ =>
          (isWritable_ofExcept _).bind fun _ => isWritable_pure _

/-- So is a page without a count. -/
theorem isWritable_beginCountless_iff (hsettings : p.settings.IsTyped) (records : Nat) :
    (p.beginCountless entries (Selection.live m)).IsWritable ↔
      ∀ event, event? .countless p.settings (pageEntries entries) records = some event →
        event.isWritable = true := by
  have hfields := isWritable_ofExcept (PageFields.read (pageEntries entries))
  unfold beginCountless event?
  cases hread : PageFields.read (pageEntries entries) with
  | error e =>
    rw [hread] at hfields
    exact iff_of_true (isWritable_bind_of_error hfields rfl) nofun
  | ok f =>
    have hoffset := PageWindow.offset?_of_integer (PageWindow.isInteger_size (f := f) hsettings)
    rw [hread] at hfields
    rw [isWritable_bind_of_ok hfields rfl,
      isWritable_bind_of_ok (isWritable_ofExcept _) (a := .whole _) (by rw [hoffset]; rfl),
      isWritable_bind_of_forall, isWritable_log]
    · exact ⟨fun h event hevent => Option.some.inj hevent ▸ h, fun h => h _ rfl⟩
    · intro _
      refine (isWritable_perform _ _).bind fun _ => (isWritable_ofExcept _).bind fun _ => ?_
      refine (isWritable_perform _ _).bind fun _ => (isWritable_all _).bind fun _ => ?_
      refine (isWritable_ofExcept _).bind fun _ => ?_
      split
      · exact (isWritable_ofExcept _).bind fun _ => isWritable_pure _
      · exact isWritable_pure _

/-- The rows of such a page are known when it is begun. -/
theorem isWritable_of_beginCountless {s : Selection Memory}
    {begun : Details × Traced (List Value)} (h : (p.beginCountless entries s).result = .ok begun) :
    begun.2.IsWritable := by
  obtain ⟨_, -, h⟩ := result_bind_eq_ok_iff.mp h
  obtain ⟨_, -, h⟩ := result_bind_eq_ok_iff.mp h
  obtain ⟨_, -, h⟩ := result_bind_eq_ok_iff.mp h
  obtain ⟨_, -, h⟩ := result_bind_eq_ok_iff.mp h
  obtain ⟨_, -, h⟩ := result_bind_eq_ok_iff.mp h
  obtain ⟨_, -, h⟩ := result_bind_eq_ok_iff.mp h
  obtain ⟨_, -, h⟩ := result_bind_eq_ok_iff.mp h
  obtain ⟨_, -, h⟩ := result_bind_eq_ok_iff.mp h
  simp only at h
  split at h
  · obtain ⟨_, -, h⟩ := result_bind_eq_ok_iff.mp h
    cases h
    exact isWritable_ofExcept _
  · cases h
    exact isWritable_ofExcept _

theorem isWritable_beginFlat (entries : List (Value × Value)) (s : Selection Memory) :
    (p.beginFlat entries s).IsWritable :=
  (isWritable_ofExcept _).bind fun _ => (isWritable_count s).bind fun _ =>
    (isWritable_ofExcept _).bind fun _ => (isWritable_ofExcept _).bind fun _ =>
      (isWritable_window _ _ s).bind fun _ => isWritable_pure _

/-- The log of a page is that of its details where its records write none. -/
theorem isWritable_paginate_iff_begin {s : Selection Memory}
    (h : ∀ begun, (p.begin s).result = .ok begun → begun.2.IsWritable) :
    (p.paginate s).IsWritable ↔ (p.begin s).IsWritable :=
  isWritable_bind_iff.trans
    ⟨And.left, fun hbegin => ⟨hbegin, fun begun hbegun => (h begun hbegun).bind fun _ =>
      isWritable_pure _⟩⟩

/-- **A page is only logged by its event** as far as numbers are concerned. -/
theorem isWritable_paginate_iff {records : List Value}
    (hkind : p.kind = .page ∨ p.kind = .flat ∨ p.kind = .countless ∨ p.kind = .keyset)
    (hsettings : p.settings.IsTyped) (hentries : p.entries = .ok entries)
    (hrecords : m.sorted = .ok records) (hcount : records.length ≤ 2 ^ 53) :
    (p.paginate (Selection.live m)).IsWritable ↔
      ∀ event, event? p.kind p.settings (pageEntries entries) records.length = some event →
        event.isWritable = true := by
  have hopened : (ofExcept p.entries).IsWritable := isWritable_ofExcept _
  have hresult : (ofExcept p.entries).result = .ok entries := hentries
  rw [isWritable_paginate_iff_begin]
  · unfold begin
    rcases hkind with hkind | hkind | hkind | hkind
    · rw [hkind]
      refine (isWritable_bind_of_ok hopened hresult).trans ?_
      rw [isWritable_bind_of_forall fun _ => isWritable_pure _]
      exact isWritable_beginPage_iff hsettings hrecords hcount
    · rw [hkind]
      refine iff_of_true ((isWritable_bind_of_ok hopened hresult).mpr ?_) nofun
      exact (isWritable_beginFlat entries _).bind fun _ => isWritable_pure _
    · rw [hkind]
      refine (isWritable_bind_of_ok hopened hresult).trans ?_
      rw [isWritable_bind_of_forall fun _ => isWritable_pure _]
      exact isWritable_beginCountless_iff hsettings records.length
    · rw [hkind]
      exact iff_of_true ((isWritable_ofExcept _).bind fun _ => isWritable_pure _) nofun
  · rintro begun hbegun
    unfold begin at hbegun
    rcases hkind with hkind | hkind | hkind | hkind
    · rw [hkind] at hbegun
      obtain ⟨_, -, hbegun⟩ := result_bind_eq_ok_iff.mp hbegun
      obtain ⟨_, -, hbegun⟩ := result_bind_eq_ok_iff.mp hbegun
      cases hbegun
      exact isWritable_pure _
    · rw [hkind] at hbegun
      obtain ⟨_, -, hbegun⟩ := result_bind_eq_ok_iff.mp hbegun
      obtain ⟨_, -, hbegun⟩ := result_bind_eq_ok_iff.mp hbegun
      cases hbegun
      exact isWritable_pure _
    · rw [hkind] at hbegun
      obtain ⟨_, -, hbegun⟩ := result_bind_eq_ok_iff.mp hbegun
      obtain ⟨_, hrows, hbegun⟩ := result_bind_eq_ok_iff.mp hbegun
      cases hbegun
      exact (isWritable_of_beginCountless hrows).bind fun _ => isWritable_pure _
    · rw [hkind] at hbegun
      obtain ⟨_, -, hbegun⟩ := result_bind_eq_ok_iff.mp hbegun
      cases hbegun
      exact isWritable_keysetRecords _ _

end Pagination.Pager

end ResourceQuery
