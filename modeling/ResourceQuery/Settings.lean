import ResourceQuery.Error
import ResourceQuery.Sorting
import ResourceQuery.Value.Quantity

/-!
# Settings

The tuning knobs of a query: page sizes, the keyset limit, the order of the stages, and
whether a requested sort replaces an ordering that is there already. Settings are given as
values of any kind and are checked before they are used.

Headlines:
* **`GivenSettings.ofEntries`**: settings from their names and values.
* **`GivenSettings.check`**: the rules, asked in a fixed order so that the first broken one is
  reported.
* **`Settings`**: accepted settings; the rules are part of the type.
* **`GivenSettings.accept`**: from the one to the other.
-/

namespace ResourceQuery

/-- Settings as they are given. -/
structure GivenSettings where
  defaultPageSize : Value := .int 20
  maxPageSize : Value := .int 100
  defaultKeysetLimit : Value := .int 25
  pipeline : Value := .tuple (Stage.all.map fun s => .str s.name)
  replaceExistingOrder : Value := .bool false
deriving Repr

/-- Settings that keep the rules. Sizes and limits are quantities of any kind. -/
structure Settings where
  /-- The page size where a request asks for none. -/
  defaultPageSize : Quantity
  /-- The largest page size. -/
  maxPageSize : Quantity
  /-- The number of records of a keyset page where a request sets no limit. -/
  defaultKeysetLimit : Quantity
  /-- The stages in the order in which they run. -/
  pipeline : List Stage
  /-- Whether a sort replaces the ordering of the collection. -/
  replaceExistingOrder : Bool
  one_le_default : defaultPageSize.isBelow (.whole 1) = false
  default_le_max : maxPageSize.isBelow defaultPageSize = false
  one_le_keyset : defaultKeysetLimit.isBelow (.whole 1) = false
  pipeline_isPerm : pipeline.isPerm Stage.all = true

namespace Settings

/-- The settings where none are given. -/
def default : Settings where
  defaultPageSize := .whole 20
  maxPageSize := .whole 100
  defaultKeysetLimit := .whole 25
  pipeline := Stage.all
  replaceExistingOrder := false
  one_le_default := by decide
  default_le_max := by decide
  one_le_keyset := by decide
  pipeline_isPerm := by decide

instance : Inhabited Settings := ⟨default⟩

end Settings

namespace GivenSettings

/-- Give a setting by its name. -/
def give (g : GivenSettings) : String × Value → Except QueryError GivenSettings
  | ("default_page_size", v) => .ok { g with defaultPageSize := v }
  | ("max_page_size", v) => .ok { g with maxPageSize := v }
  | ("default_keyset_limit", v) => .ok { g with defaultKeysetLimit := v }
  | ("pipeline", v) => .ok { g with pipeline := v }
  | ("replace_existing_order", v) => .ok { g with replaceExistingOrder := v }
  | _ => .error .wrongKind

/-- Settings from their names and values. -/
def ofEntries (entries : List (String × Value)) : Except QueryError GivenSettings :=
  entries.foldlM give {}

/-- The settings by their names. -/
def toEntries (g : GivenSettings) : List (String × Value) :=
  [("default_page_size", g.defaultPageSize), ("max_page_size", g.maxPageSize),
    ("default_keyset_limit", g.defaultKeysetLimit), ("pipeline", g.pipeline),
    ("replace_existing_order", g.replaceExistingOrder)]

/-- A comparison that must not fail. -/
def below (a b : Value) : Except QueryError Bool :=
  match a.below? b with
  | some answer => .ok answer
  | none => .error .wrongKind

/-- The stage that an item names. -/
def stage? (item : Value) : Option Stage := item.text?.bind Stage.read?

/-- The stages of a pipeline, which has to list each of them exactly once. Its items are sorted
first, so items that do not compare are noticed before any that is no stage. -/
def readPipeline (given : Value) : Except QueryError (List Stage) :=
  match given.items? with
  | none => .error .wrongKind
  | some items => do
    let _ ← Sorting.sort below items
    match items.mapM stage? with
    | some stages =>
      if stages.isPerm Stage.all then return stages
      else throw (.configuration (.pipeline given))
    | none => throw (.configuration (.pipeline given))

/-- The rules for settings. -/
def check (g : GivenSettings) : Except QueryError (List Stage) := do
  if ← below g.defaultPageSize (.int 1) then throw (.configuration .pageSizeBelowOne)
  if ← below g.maxPageSize g.defaultPageSize then throw (.configuration .maximumBelowDefault)
  if ← below g.defaultKeysetLimit (.int 1) then throw (.configuration .keysetLimitBelowOne)
  readPipeline g.pipeline

/-- A quantity among settings that are used. -/
def quantity (v : Value) : Except QueryError Quantity :=
  match Quantity.ofValue? v with
  | some q => .ok q
  | none => .error .wrongKind

/-- Accept settings that keep the rules. -/
def accept (g : GivenSettings) : Except QueryError Settings := do
  let stages ← g.check
  let size ← quantity g.defaultPageSize
  let largest ← quantity g.maxPageSize
  let limit ← quantity g.defaultKeysetLimit
  if h : size.isBelow (.whole 1) = false ∧ largest.isBelow size = false
      ∧ limit.isBelow (.whole 1) = false ∧ stages.isPerm Stage.all = true then
    return {
      defaultPageSize := size
      maxPageSize := largest
      defaultKeysetLimit := limit
      pipeline := stages
      replaceExistingOrder := g.replaceExistingOrder.isTruthy
      one_le_default := h.1
      default_le_max := h.2.1
      one_le_keyset := h.2.2.1
      pipeline_isPerm := h.2.2.2
    }
  else throw .wrongKind

end GivenSettings

end ResourceQuery
