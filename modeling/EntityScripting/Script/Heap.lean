import EntityScripting.Script.Value

/-!
# The heap of scripts

Variables, tables, functions and the global names of levels. A table is plain, or a frozen view of
another one, or the environment of a level: what a script reads from a view comes from its source,
and what it writes to one is refused. A level's names live in a store that scripts reach only
through its environment; a name is bound once, tables are frozen on the way in, and a sealed store
takes nothing more.
-/

namespace EntityScripting.Script

open Number Text

/-- The entries of a table by their keys; no entry is nil. -/
abbrev Entries := SortedMap Value Value

inductive TableObject where
  | plain (entries : Entries)
  | frozen (source : TableId)
  | environment (store : StoreId)
deriving Repr, Inhabited

/-- The global names of a level. -/
structure GlobalStore where
  bindings : SortedMap Bytes Value := {}
  isSealed : Bool := false
deriving Repr, Inhabited

/-- A local variable in scope. -/
structure Binding where
  name : Name
  cell : CellId
  /-- How many functions enclose the declaration. -/
  depth : Nat

/-- A place in a script. -/
structure Site where
  chunk : Bytes
  line : Nat
deriving DecidableEq, Repr, Inhabited

/-- Where the running functions were called, the innermost first; none for a call that no script
made. -/
abbrev Trace := List (Option Site)

/-- What the code of a function refers to when it runs. -/
structure Scope where
  bindings : List Binding
  depth : Nat
  chunk : Bytes
  varargs : List Value := []
  trace : Trace := []

structure Closure where
  code : FunctionBody
  scope : Scope

/-- A list that is gone through, and the last position that was read. -/
structure Cursor where
  list : TableId
  position : Nat
deriving Repr, Inhabited

structure Heap where
  cells : Array Value := #[]
  tables : Array TableObject := #[]
  closures : Array Closure := #[]
  cursors : Array Cursor := #[]
  stores : Array GlobalStore := #[]
  /-- The next identity; the first two belong to the tables of variables. -/
  nextIdentity : Nat := 2

/-- Why a write to a table fails. -/
inductive WriteError where
  | refused (error : ScriptError)
  | nilKey
  | nanKey
deriving DecidableEq, Repr, Inhabited

/-- The number of entries at the positions from one on, before the first gap. -/
def Entries.border (entries : Entries) : Nat :=
  entries.entries.foldl (fun n (key, _) => if key = .ofNat (n + 1) then n + 1 else n) 0

/-- The entries after a write of any value. -/
def Entries.set (entries : Entries) (key value : Value) : Entries :=
  if value = .nil then entries.erase key else entries.insert key value

/-- The entries with values at the positions from one on. -/
def Entries.withItems (entries : Entries) (items : List Value) : Entries :=
  items.zipIdx.foldr (fun (v, i) entries => entries.set (.ofNat (i + 1)) v) entries

def Entries.at (entries : Entries) (key : Value) : Value := (entries.get? key).getD .nil

namespace Heap

/-! ### Reading -/

def table? (heap : Heap) (t : TableId) : Option TableObject := heap.tables[t]?

/-- The entries of a plain table; views and environments have none of their own. -/
def entries (heap : Heap) (t : TableId) : Entries :=
  match heap.table? t with
  | some (.plain entries) => entries
  | _ => {}

/-- What a table itself has at a position. -/
def rawGet (heap : Heap) (t : TableId) (key : Value) : Value := (heap.entries t).at key.key

/-- The length of a table itself. -/
def rawLength (heap : Heap) (t : TableId) : Nat := (heap.entries t).border

/-- What a store binds a key to. -/
def bound (heap : Heap) (store : StoreId) (key : Value) : Value :=
  match heap.stores[store]?, key with
  | some s, .text name => (s.bindings.get? name).getD .nil
  | _, _ => .nil

/-- What a script reads at a key; the fuel bounds how many views lie one upon another. -/
def lookup (heap : Heap) (key : Value) : Nat → TableId → Value
  | 0, _ => .nil
  | fuel + 1, t =>
    match heap.table? t with
    | some (.plain entries) => entries.at key
    | some (.frozen source) => lookup heap key fuel source
    | some (.environment store) => heap.bound store key
    | none => .nil

def get (heap : Heap) (t : TableId) (key : Value) : Value :=
  heap.lookup key.key (heap.tables.size + 1) t

/-- The length of a table as a script sees it. -/
def length (heap : Heap) (t : TableId) : Nat :=
  match heap.table? t with
  | some (.frozen source) => heap.rawLength source
  | _ => heap.rawLength t

/-- The table that an iteration over a table goes through. -/
def source (heap : Heap) (t : TableId) : TableId :=
  match heap.table? t with
  | some (.frozen source) => source
  | _ => t

/-- The entry of a table itself after a key, or the first one after nil. -/
def next (heap : Heap) (t : TableId) (key : Value) : Option (Value × Value) :=
  if key = .nil then (heap.entries t).entries.head? else (heap.entries t).next? key.key

/-! ### New objects -/

def newTable (heap : Heap) (object : TableObject) : TableId × Heap :=
  (heap.tables.size, { heap with tables := heap.tables.push object })

def newCell (heap : Heap) (value : Value) : CellId × Heap :=
  (heap.cells.size, { heap with cells := heap.cells.push value })

def newClosure (heap : Heap) (closure : Closure) : ClosureId × Heap :=
  (heap.closures.size, { heap with closures := heap.closures.push closure })

def newCursor (heap : Heap) (list : TableId) : CursorId × Heap :=
  (heap.cursors.size, { heap with cursors := heap.cursors.push ⟨list, 0⟩ })

def newStore (heap : Heap) (store : GlobalStore) : StoreId × Heap :=
  (heap.stores.size, { heap with stores := heap.stores.push store })

/-! ### Writing -/

def setCell (heap : Heap) (cell : CellId) (value : Value) : Heap :=
  { heap with cells := heap.cells.modify cell fun _ => value }

/-- Puts a value into a plain table, under a key in its form as a key. -/
def rawSet (heap : Heap) (t : TableId) (key value : Value) : Heap :=
  { heap with tables := heap.tables.modify t fun
      | .plain entries => .plain (entries.set key value)
      | object => object }

/-- A freeze under way: the views made so far, by the tables they show. -/
structure Freezing where
  heap : Heap
  views : SortedMap TableId TableId := {}

/-- The tables among the values of a table, with their keys. -/
def nested (heap : Heap) (t : TableId) : List (Value × TableId) :=
  (heap.entries t).entries.filterMap fun
    | (key, .table inner) => some (key, inner)
    | _ => none

/-- Makes a view of a table, once, and puts views in the place of the tables in it. -/
def freezeWith : Nat → TableId → Freezing → TableId × Freezing
  | 0, t, state => (t, state)
  | fuel + 1, t, state =>
    match state.views.get? t with
    | some view => (view, state)
    | none =>
      let (view, heap) := state.heap.newTable (.frozen t)
      let nested := heap.nested t
      let state : Freezing := ⟨heap, state.views.insert t view⟩
      let state := nested.foldl (fun state (key, inner) =>
        let (frozen, state) := freezeWith fuel inner state
        { state with heap := state.heap.rawSet t key (.table frozen) }) state
      (view, state)

/-- A read-only view of a table and of all tables in it. No table is visited twice, so the number of
tables bounds how deep the visits nest. -/
def freeze (heap : Heap) (t : TableId) : TableId × Heap :=
  let (view, state) := freezeWith (heap.tables.size + 1) t ⟨heap, {}⟩
  (view, state.heap)

/-- Binds a name of a store. -/
def bind (heap : Heap) (store : StoreId) (name : Bytes) (value : Value) : Heap :=
  { heap with stores := heap.stores.modify store fun s =>
      { s with bindings := s.bindings.insert name value } }

/-- The name of the engine's own table. -/
def apiName : Bytes := utf8 "script"

/-- Why a global name cannot be defined, if it cannot. -/
def definitionError? (heap : Heap) (store : StoreId) (key value : Value) : Option ScriptError :=
  match key with
  | .text name =>
    if name = apiName then some .reservedGlobalName
    else if heap.bound store key ≠ .nil then some .globalRedefinition
    else match value with
      | .function _ | .table _ => none
      | _ => some .globalType
  | _ => some .globalKey

/-- Defines a global name: functions as they are, tables frozen. -/
def define (heap : Heap) (store : StoreId) (name : Bytes) (value : Value) : Heap :=
  match value with
  | .table t =>
    let (view, heap) := heap.freeze t
    heap.bind store name (.table view)
  | value => heap.bind store name value

/-- Lets a store take no more names. -/
def sealStore (heap : Heap) (store : StoreId) : Heap :=
  { heap with stores := heap.stores.modify store fun s => { s with isSealed := true } }

/-- Why a script cannot write to a table, if it cannot. -/
def writeError? (heap : Heap) (t : TableId) (key value : Value) : Option WriteError :=
  match heap.table? t with
  | some (.frozen _) => some (.refused .readOnly)
  | some (.environment store) =>
    if (heap.stores[store]?).any (·.isSealed) then some (.refused .readOnly)
    else (heap.definitionError? store key value).map .refused
  | _ =>
    match key with
    | .nil => some .nilKey
    | .number x => if x.isNaN then some .nanKey else none
    | _ => none

/-- The heap after a write of a script that nothing stands against. -/
def write (heap : Heap) (t : TableId) (key value : Value) : Heap :=
  match heap.table? t, key with
  | some (.environment store), .text name => heap.define store name value
  | _, key => heap.rawSet t key.key value

/-- Reads the next position of a cursor. -/
def advance (heap : Heap) (cursor : CursorId) : Value × Heap :=
  match heap.cursors[cursor]? with
  | none => (.nil, heap)
  | some c =>
    let position := c.position + 1
    (heap.rawGet c.list (.ofNat position),
      { heap with cursors := heap.cursors.modify cursor fun c => { c with position } })

end Heap

/-! ### Accesses -/

/-- What a script can do with the heap. -/
inductive Access : Type → Type where
  | newCell (value : Value) : Access CellId
  | cell (id : CellId) : Access Value
  | setCell (id : CellId) (value : Value) : Access Unit
  | newTable (entries : Entries) : Access TableId
  | get (t : TableId) (key : Value) : Access Value
  | set (t : TableId) (key value : Value) : Access (Except WriteError Unit)
  | length (t : TableId) : Access Nat
  | rawGet (t : TableId) (key : Value) : Access Value
  | rawLength (t : TableId) : Access Nat
  | next (t : TableId) (key : Value) : Access (Option (Value × Value))
  | source (t : TableId) : Access TableId
  | newClosure (closure : Closure) : Access ClosureId
  | closure (id : ClosureId) : Access (Option Closure)
  | newCursor (list : TableId) : Access CursorId
  | advance (id : CursorId) : Access Value
  | newIdentity : Access Nat

namespace Access

/-- The answer to an access, and the heap after it. -/
def run {α : Type} (access : Access α) (heap : Heap) : α × Heap :=
  match access with
  | .newCell value => heap.newCell value
  | .cell id => (heap.cells[id]?.getD .nil, heap)
  | .setCell id value => ((), heap.setCell id value)
  | .newTable entries => heap.newTable (.plain entries)
  | .get t key => (heap.get t key, heap)
  | .set t key value =>
    match heap.writeError? t key value with
    | some e => (.error e, heap)
    | none => (.ok (), heap.write t key value)
  | .length t => (heap.length t, heap)
  | .rawGet t key => (heap.rawGet t key, heap)
  | .rawLength t => (heap.rawLength t, heap)
  | .next t key => (heap.next t key, heap)
  | .source t => (heap.source t, heap)
  | .newClosure c => heap.newClosure c
  | .closure id => (heap.closures[id]?, heap)
  | .newCursor list => heap.newCursor list
  | .advance id => heap.advance id
  | .newIdentity => (heap.nextIdentity, { heap with nextIdentity := heap.nextIdentity + 1 })

end Access

end EntityScripting.Script
