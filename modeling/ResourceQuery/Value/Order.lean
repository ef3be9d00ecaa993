import ResourceQuery.Value.Basic

/-!
# Order of values

Numbers compare with numbers, texts with texts by code point, lists with lists and tuples with
tuples place by place. A set is below the sets that hold all its items and more, so of two sets
neither need be below the other. Any other pair does not compare at all, and no order is made up
for it.

Headlines:
* **`Value.below?`**: is the first value less than the second, if the two compare?
* **`Value.belowItems?`**: lists compare at the first place where they differ.
* **`Value.isRanked`**: values without sets in them, on which the order is a ranking.
* **`Value.contains?`**: is a value among those that another holds?
* **`Value.slice`**: a window into a list, in which negative bounds count from the end.
-/

namespace ResourceQuery.Value

open Number

/-- Are both values numbers, and is the first the smaller one? NaN is never smaller. -/
def belowNumber? (a b : Value) : Option Bool := do
  let x ← a.number?
  let y ← b.number?
  return x.compare? y == some .lt

/-- Is the first of two texts or of two numbers the smaller one? -/
def belowScalar? (a b : Value) : Option Bool :=
  match a.text?, b.text? with
  | some s, some t => some (decide (s < t))
  | _, _ => belowNumber? a b

mutual

/-- Is the first value less than the second? Nothing if the two do not compare. -/
def below? : Value → Value → Option Bool
  | .list xs, .list ys => belowItems? xs ys
  | .tuple xs, .tuple ys => belowItems? xs ys
  | .set xs, .set ys => some (xs.length < ys.length && allAmong xs ys)
  | .loose s, b => b.textPoints?.map fun t => decide (s.points < t)
  | a, .loose t => a.textPoints?.map fun s => decide (s < t.points)
  | a, b => belowScalar? a b

/-- Lexicographic comparison at the first place where two lists differ. -/
def belowItems? : List Value → List Value → Option Bool
  | [], [] => some false
  | [], _ :: _ => some true
  | _ :: _, [] => some false
  | x :: xs, y :: ys => if same x y then belowItems? xs ys else below? x y

end

/-- Does a value compare with another, in the sense that neither order question fails? -/
def comparable (a b : Value) : Bool := (below? a b).isSome && (below? b a).isSome

mutual

/-- Is the value free of sets and of NaN? Among such values that compare, the order is a
ranking: two of them that are not the same have one below the other. -/
def isRanked : Value → Bool
  | .set _ | .float .nan => false
  | .list items | .tuple items => allRanked items
  | _ => true

/-- Are all values free of sets and of NaN? -/
def allRanked : List Value → Bool
  | [] => true
  | item :: items => isRanked item && allRanked items

end

/-- A bound of a window as a place in a list of the given length: negative ones count from
the end, and what lies outside is moved to the nearer end. -/
def clampIndex (length : Nat) (i : Int) : Nat :=
  if i < 0 then (i + length).toNat else min i.toNat length

/-- The items from place `start` up to place `stop`, or to the end. -/
def slice {α : Type} (start : Int) (stop : Option Int) (xs : List α) : List α :=
  let first := clampIndex xs.length start
  let last := (stop.map (clampIndex xs.length)).getD xs.length
  (xs.take last).drop first

/-! ## Hashing -/

mutual

/-- Can the value be looked up in a set? Lists, maps, sets and records cannot. -/
def isHashable : Value → Bool
  | .list _ | .set _ | .map _ | .record _ => false
  | .tuple items => allHashable items
  | _ => true

/-- Can every value be looked up in a set? -/
def allHashable : List Value → Bool
  | [] => true
  | item :: items => isHashable item && allHashable items

end

/-- Is the value among the items of a set? Nothing for a value that cannot be looked up; a set
can be, and is never an item of another. -/
def inSet? (v : Value) (items : List Value) : Option Bool :=
  match v with
  | .set _ => some false
  | _ => if isHashable v then some (items.any (same v ·)) else none

/-- Does a text stand somewhere inside another? -/
def occursIn {α : Type} [DecidableEq α] (part : List α) : List α → Bool
  | [] => part.isEmpty
  | c :: cs => part.isPrefixOf (c :: cs) || occursIn part cs

/-- Is the value among those that the container holds: the items of a list, a tuple or a set, the
keys of a map, the parts of a text? Nothing if that cannot be asked. -/
def contains? (container v : Value) : Option Bool :=
  match container with
  | .list items | .tuple items => some (items.any (v.same ·))
  | .set items => v.inSet? items
  | .map entries => if isHashable v then some (entries.any fun e => v.same e.1) else none
  | c => do return occursIn (← v.textPoints?) (← c.textPoints?)

end ResourceQuery.Value
