import ResourceQuery.Call
import ResourceQuery.Number.Reading

/-!
# Traced computations

Serving a request may fail, writes to a log and asks things of collections. A `Traced` value is
the result together with everything that happened on the way, in order. What happened before
a failure stays on record.

Headlines:
* **`LogEvent`**: what is logged, with `LogEvent.channel` and `LogEvent.text` for each event.
* **`Traced`**: result and entries, a monad in which the entries of a sequence are appended.
* **`Traced.accesses`**: the things asked of recording collections, in order.
* **`Traced.written`**: the same with its log written down, which fails at the first event that
  cannot be written.
* **`Traced.bind_of_ok`**, **`bind_of_error`**: what a step adds, and that a failure ends it all.
-/

namespace ResourceQuery

/-! ## Log events -/

/-- The part of the library that an event is logged by. -/
inductive Channel where
  | registry | sort | include | filter | query | pagination
deriving Repr, DecidableEq

/-- An event that is logged. -/
inductive LogEvent where
  | registeredFilter (name label : String)
  | registeredSort (name label : String)
  | registeredDynamicSort (stem label : String)
  | applyingSort (token : String)
  | applyingDefaultSort
  | appendingUniqueSort (clauses : List OrderClause)
  | including (specs : List Value)
  | skippingFilter (name : String)
  | applyingFilter (name : String) (query : Value)
  | runningStage (owner stage : String)
  | pagingNumbered (number last offset size : Int)
  | pagingCountless (number offset size : Int)
  | pagingKeyset (column direction : String) (position : Value)
deriving Repr

namespace LogEvent

/-- Where an event is logged. -/
def channel : LogEvent → Channel
  | .registeredFilter .. | .registeredSort .. | .registeredDynamicSort .. => .registry
  | .applyingSort _ | .applyingDefaultSort | .appendingUniqueSort _ => .sort
  | .including _ => .include
  | .skippingFilter _ | .applyingFilter .. => .filter
  | .runningStage .. => .query
  | .pagingNumbered .. | .pagingCountless .. | .pagingKeyset .. => .pagination

/-- Offset and size of a page in parentheses. -/
def windowText (offset size : Int) : String :=
  "(offset=" ++ toString offset ++ ", size=" ++ toString size ++ ")"

/-- The wording of an event. -/
def text : LogEvent → String
  | .registeredFilter name label => "Registered filter " ++ name ++ " -> " ++ label
  | .registeredSort name label => "Registered sort " ++ name ++ " -> " ++ label
  | .registeredDynamicSort stem label => "Registered dynamic sort " ++ stem ++ "* -> " ++ label
  | .applyingSort token => "Applying sort " ++ token
  | .applyingDefaultSort => "Applying default sort"
  | .appendingUniqueSort clauses => "Appending unique sort " ++ OrderClause.literalOf clauses
  | .including specs => "Including " ++ (Value.list specs).literal
  | .skippingFilter name => "Skipping filter " ++ name
  | .applyingFilter name query => "Applying filter " ++ name ++ "=" ++ query.literal
  | .runningStage owner stage => owner ++ ": running " ++ stage ++ " stage"
  | .pagingNumbered number last offset size =>
    "Paginating page " ++ toString number ++ " of " ++ toString last ++ " "
      ++ windowText offset size
  | .pagingCountless number offset size =>
    "Paginating countless page " ++ toString number ++ " " ++ windowText offset size
  | .pagingKeyset column direction position =>
    "Keyset page on " ++ column ++ " " ++ direction ++ " " ++ position.literal

/-- Can the event be written down? The numbers of a page may have too many digits. -/
def isWritable : LogEvent → Bool
  | .pagingNumbered number last offset size =>
    [number, last, offset, size].all Number.isWritable
  | .pagingCountless number offset size => [number, offset, size].all Number.isWritable
  | _ => true

end LogEvent

/-! ## Traces -/

/-- One thing that happened. -/
inductive Entry where
  | logged (event : LogEvent)
  | asked (access : Access)

/-- Can it be written down, if it is logged? -/
def Entry.isWritable : Entry → Bool
  | .logged event => event.isWritable
  | .asked _ => true

/-- A result, and what happened on the way to it. -/
structure Traced (α : Type) where
  result : Except QueryError α
  entries : List Entry

namespace Traced

variable {α β : Type}

/-- A result on the way to which nothing happened. -/
def ofExcept (r : Except QueryError α) : Traced α := ⟨r, []⟩

/-- Go on with a result if there is one. -/
def andThen (x : Traced α) (f : α → Traced β) : Traced β :=
  match x.result with
  | .ok a => ⟨(f a).result, x.entries ++ (f a).entries⟩
  | .error e => ⟨.error e, x.entries⟩

instance : Monad Traced where
  pure a := ofExcept (.ok a)
  bind := andThen

/-- Fail. -/
def fail (e : QueryError) : Traced α := ofExcept (.error e)

/-- Log an event. -/
def log (event : LogEvent) : Traced Unit := ⟨.ok (), [.logged event]⟩

/-- Note that something was asked of a collection. -/
def note (access : Access) : Traced Unit := ⟨.ok (), [.asked access]⟩

/-- The events that were logged. -/
def events (x : Traced α) : List LogEvent :=
  x.entries.filterMap fun
    | .logged event => some event
    | .asked _ => none

/-- What was asked of collections. -/
def accesses (x : Traced α) : List Access :=
  x.entries.filterMap fun
    | .asked access => some access
    | .logged _ => none

/-- A computation with its log written down: it fails at the first event that cannot be. -/
def written (x : Traced α) : Traced α :=
  if x.entries.all (·.isWritable) then x
  else ⟨.error (.invalidValue (.tooManyDigits none)), x.entries.takeWhile (·.isWritable)⟩

/-! ## Laws -/

theorem bind_of_ok {x : Traced α} {a : α} (h : x.result = .ok a) (f : α → Traced β) :
    (x >>= f) = ⟨(f a).result, x.entries ++ (f a).entries⟩ := by
  show andThen x f = _
  unfold andThen
  rw [h]

theorem bind_of_error {x : Traced α} {e : QueryError} (h : x.result = .error e)
    (f : α → Traced β) : (x >>= f) = ⟨.error e, x.entries⟩ := by
  show andThen x f = _
  unfold andThen
  rw [h]

@[simp] theorem fail_bind (e : QueryError) (f : α → Traced β) : (fail e >>= f) = fail e := rfl

@[simp] theorem result_pure (a : α) : (pure a : Traced α).result = .ok a := rfl

@[simp] theorem entries_pure (a : α) : (pure a : Traced α).entries = [] := rfl

instance : LawfulMonad Traced := LawfulMonad.mk' Traced
  (fun x => by
    obtain ⟨result, entries⟩ := x
    cases result with
    | ok a =>
      show andThen _ _ = _
      simp [andThen, ofExcept]
    | error e => rfl)
  (fun a f => by
    show andThen _ _ = _
    simp [andThen, pure, ofExcept])
  (fun x f g => by
    cases hx : x.result with
    | error e =>
      rw [bind_of_error hx, bind_of_error hx]
      rfl
    | ok a =>
      rw [bind_of_ok hx, bind_of_ok hx]
      cases hf : (f a).result with
      | error e =>
        rw [bind_of_error hf]
        rfl
      | ok b =>
        rw [bind_of_ok hf]
        show andThen _ _ = _
        simp [andThen, List.append_assoc])

theorem accesses_bind_of_ok {x : Traced α} {a : α} (h : x.result = .ok a) (f : α → Traced β) :
    (x >>= f).accesses = x.accesses ++ (f a).accesses := by
  rw [bind_of_ok h]
  exact List.filterMap_append ..

end Traced

end ResourceQuery
