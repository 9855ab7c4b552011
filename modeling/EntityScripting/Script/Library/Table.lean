import EntityScripting.Script.Argument

/-!
# Functions on tables

Reads and writes go the way of a script's own: a view is read like the table behind it, and a write
to one is refused.
-/

namespace EntityScripting.Script

open Number Text Activity

namespace TableFunction

/-- The number of items of the first argument, which must be a table. -/
def size (call : Invocation) : Activity Int := do
  return (← access (.length (← call.table 1)) : Nat)

def item (t : Value) (position : Int) : Activity Value :=
  t.index none (.integer (Int64.ofInt position))

def setItem (t : Value) (position : Int) (v : Value) : Activity Unit :=
  t.setIndex none (.integer (Int64.ofInt position)) v

/-- Puts two items into their places, one after the other. -/
def setItems (t : Value) (i : Int) (v : Value) (j : Int) (w : Value) : Activity Unit := do
  setItem t i v
  setItem t j w

/-- Moves items by `shift` places, so many of them, from a position on or from it back. -/
def shiftItems (source target : Value) (shift step : Int) : (count : Nat) → Int → Activity Unit
  | 0, _ => pure ()
  | count + 1, position => do
    setItem target (position + shift) (← item source position)
    shiftItems source target shift step count (position + step)

/-- The items from a position on, as many as `count` says. -/
def itemsFrom (t : Value) : (count : Nat) → Int → Activity (List Value)
  | 0, _ => pure []
  | count + 1, position => do
    let v ← item t position
    return v :: (← itemsFrom t count (position + 1))

/-- The texts of items from a position on. -/
def textsFrom (call : Invocation) : (count : Nat) → Int → Activity (List Bytes)
  | 0, _ => pure []
  | count + 1, position => do
    match (← item (call.arg 1) position).toBytes? with
    | some s => return s :: (← textsFrom call count (position + 1))
    | none => call.fail s!"invalid value (at index {intText position}) in table for 'concat'"

def joined (call : Invocation) : Activity Value := do
  let last ← size call
  let separator ← call.bytesOr 2 []
  let first ← call.integerOr 3 1
  let last ← call.integerOr 4 last
  return .text (separator.intercalate (← textsFrom call (last - first + 1).toNat first))

def insertItem (call : Invocation) : Activity Unit := do
  let last := (← size call) + 1
  match call.args with
  | [t, v] => setItem t last v
  | [t, _, v] =>
    let position ← call.integer 2
    if 1 ≤ position ∧ position ≤ last then
      shiftItems t t 1 (-1) (last - position).toNat (last - 1)
      setItem t position v
    else call.badArgument 2 "position out of bounds"
  | _ => call.fail "wrong number of arguments to 'insert'"

def removeItem (call : Invocation) : Activity Value := do
  let size ← size call
  let position ← call.integerOr 2 size
  if position ≠ size ∧ ¬(1 ≤ position ∧ position ≤ size + 1) then
    call.badArgument 2 "position out of bounds"
  else
    let t := call.arg 1
    let removed ← item t position
    shiftItems t t (-1) 1 (size - position).toNat (position + 1)
    setItem t (max size position) .nil
    return removed

/-- The most values that a call gives. -/
def mostResults : Int := 1000000

def unpacked (call : Invocation) : Activity (List Value) := do
  let first ← call.integerOr 2 1
  let last ← if call.lacks 3 then
      match ← (call.arg 1).length none with
      | .integer n => pure n.toInt
      | _ => pure 0
    else call.integer 3
  if last < first then return []
  else if mostResults ≤ last - first then call.fail "too many results to unpack"
  else itemsFrom (call.arg 1) (last - first + 1).toNat first

def packed (call : Invocation) : Activity Value := do
  let entries := Entries.withItems {} call.args
  return .table (← access (.newTable (entries.insert (.ofString "n") (.ofNat call.args.length))))

def moveItems (call : Invocation) : Activity Value := do
  let first ← call.integer 2
  let last ← call.integer 3
  let position ← call.integer 4
  let target := if call.lacks 5 then 1 else 5
  discard (call.table 1)
  discard (call.table target)
  let source := call.arg 1
  let target := call.arg target
  let count := (last - first + 1).toNat
  if position > last ∨ position ≤ first ∨ source ≠ target then
    shiftItems source target (position - first) 1 count first
  else shiftItems source target (position - first) (-1) count last
  return target

/-! ### Sorting -/

/-- Whether an item comes before another: by a function, or else by their own order. -/
def comesBefore (call : Invocation) (v w : Value) : Activity Bool :=
  if call.lacks 2 then v.lessThan none w
  else return ((← call.callBack (call.arg 2) [v, w]).headD .nil).isTrue

/-- The first position above `i`, and not above `limit`, whose item does not come before the pivot,
and that item. -/
def scanUp (call : Invocation) (pivot : Value) (limit : Int) :
    (fuel : Nat) → (i : Int) → Activity (Int × Value)
  | 0, _ => call.fail "invalid order function for sorting"
  | fuel + 1, i => do
    let v ← item (call.arg 1) (i + 1)
    if ← comesBefore call v pivot then
      if i + 1 = limit then call.fail "invalid order function for sorting"
      else scanUp call pivot limit fuel (i + 1)
    else return (i + 1, v)

/-- The first position below `j`, and not below `limit`, whose item the pivot does not come before,
and that item. -/
def scanDown (call : Invocation) (pivot : Value) (limit : Int) :
    (fuel : Nat) → (j : Int) → Activity (Int × Value)
  | 0, _ => call.fail "invalid order function for sorting"
  | fuel + 1, j => do
    let v ← item (call.arg 1) (j - 1)
    if ← comesBefore call pivot v then
      if j - 1 < limit then call.fail "invalid order function for sorting"
      else scanDown call pivot limit fuel (j - 1)
    else return (j - 1, v)

/-- Puts the items around the pivot, which stands in front of `last`, and gives its new position. -/
def partition (call : Invocation) (pivot : Value) (last : Int) :
    (fuel : Nat) → (i j : Int) → Activity Int
  | 0, i, _ => pure i
  | fuel + 1, i, j => do
    let t := call.arg 1
    let (i, v) ← scanUp call pivot (last - 1) (fuel + 2) i
    let (j, w) ← scanDown call pivot i (fuel + 2) j
    if j < i then
      setItems t (last - 1) v i pivot
      return i
    else
      setItems t i w j v
      partition call pivot last fuel i j

/-- Exchanges two items if the later one comes before the earlier one. -/
def order (call : Invocation) (first last : Int) : Activity Unit := do
  let t := call.arg 1
  let v ← item t first
  let w ← item t last
  if ← comesBefore call w v then setItems t first w last v

/-- Exchanges the middle one of three items with the first or with the last one if it is out of
order. -/
def orderMiddle (call : Invocation) (first middle last : Int) : Activity Unit := do
  let t := call.arg 1
  let v ← item t middle
  let w ← item t first
  if ← comesBefore call v w then setItems t middle w first v
  else
    let w ← item t last
    if ← comesBefore call w v then setItems t middle w last v

/-- Sorts the items between two positions. -/
def sortBetween (call : Invocation) : (fuel : Nat) → (first last : Int) → Activity Unit
  | 0, _, _ => pure ()
  | fuel + 1, first, last =>
    if last ≤ first then pure ()
    else do
      let t := call.arg 1
      order call first last
      if last - first = 1 then return ()
      let middle := (first + last) / 2
      orderMiddle call first middle last
      if last - first = 2 then return ()
      let pivot ← item t middle
      let v ← item t (last - 1)
      setItems t middle v (last - 1) pivot
      let position ← partition call pivot last (last - first).toNat first (last - 1)
      if position - first < last - position then
        sortBetween call fuel first (position - 1)
        sortBetween call fuel (position + 1) last
      else
        sortBetween call fuel (position + 1) last
        sortBetween call fuel first (position - 1)

def sortItems (call : Invocation) : Activity Unit := do
  let count ← size call
  if count < 2 then return ()
  else
    match call.arg 2 with
    | .nil | .function _ => sortBetween call count.toNat 1 count
    | _ => call.unexpected 2 "function"

def run (f : TableFunction) (call : Invocation) : Activity (List Value) := do
  match f with
  | .concat => return [← joined call]
  | .insert => do
    insertItem call
    return []
  | .pack => return [← packed call]
  | .unpack => unpacked call
  | .remove => return [← removeItem call]
  | .move => return [← moveItems call]
  | .sort => do
    sortItems call
    return []

end TableFunction

end EntityScripting.Script
