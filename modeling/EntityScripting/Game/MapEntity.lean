import EntityScripting.Game.Primitive
import EntityScripting.Json.Basic
import EntityScripting.Number.Numeral
import EntityScripting.Text.Blank

/-!
# Map entities

A level's file lists entities as JSON objects: a class and any number of keys. Numbers may be given
as texts, and vectors as three numbers in one text. An entity with a key that does not fit is not
made.
-/

namespace EntityScripting

open Number Text

structure EntitySpec where
  classname : String
  keys : SortedMap String Json := {}
deriving Repr, Inhabited

namespace Json

mutual

/-- Whether every number in a value is one of 64 bits. -/
def isBounded : Json → Bool
  | .number .huge => false
  | .array items => itemsBounded items
  | .object members => membersBounded members
  | _ => true

def itemsBounded : List Json → Bool
  | [] => true
  | item :: rest => item.isBounded && itemsBounded rest

def membersBounded : List (String × Json) → Bool
  | [] => true
  | (_, value) :: rest => value.isBounded && membersBounded rest

end

/-- The number that a value is or that its text stands for. -/
def toDouble? : Json → Option Double
  | .number n => n.toDouble?
  | .string s => Double.ofText? (trimBlanks s.toList)
  | _ => none

/-- Three numbers in an array, or in a text with blanks between them. -/
def toVector? : Json → Option Vec3
  | .array items => do
    Vec3.ofComponents? (← items.mapM fun (item : Json) => item.toDouble?.map Single.ofDouble)
  | .string s => do Vec3.ofComponents? (← (blankSeparated s.toList).mapM Single.ofText?)
  | _ => none

end Json

namespace EntitySpec

/-- The entity of an object, which has one class. -/
def ofJson? (value : Json) : Option EntitySpec :=
  match value with
  | .object members =>
    match members.filter fun entry => entry.1 = "classname" with
    | [(_, .string classname)] =>
      if value.isBounded then
        some ⟨classname, .ofList (members.filter fun entry => entry.1 ≠ "classname")⟩
      else none
    | _ => none
  | _ => none

/-- The entities of an array. -/
def listOfJson? : Json → Option (List EntitySpec)
  | .array items => items.mapM ofJson?
  | _ => none

end EntitySpec

/-- The value that a map gives for a key, in the kind of the key. -/
def FieldValue.ofJson (field : Field) (value : Json) : Except ScriptError FieldValue :=
  let mismatch (expected : String) : Except ScriptError FieldValue :=
    .error (.fieldType field expected value.kindName)
  match field.kind with
  | .text =>
    match value with
    | .null => .ok (.text none)
    | .string s => .ok (.text (some s))
    | .number n => .ok (.text (some n.text))
    | _ => mismatch "string"
  | .float =>
    match value.toDouble? with
    | some x => .ok (.float (Single.ofDouble x))
    | none => mismatch "number"
  | .integer =>
    match (value.toDouble?.bind Double.exactInt?).bind balancedInt32? with
    | some n => .ok (.integer n)
    | none => mismatch "integer"
  | .vector =>
    match value.toVector? with
    | some v => .ok (.vector v)
    | none => mismatch "vector"

namespace Game

/-- The keys and values of a map entity; the texts among them become shared ones as they are read,
up to the first key that does not fit. -/
def convertKeys : List (String × Json) → Primitive (List (Field × FieldValue))
  | [], g => (.ok [], g)
  | (name, value) :: rest, g =>
    match (do let field ← Field.named name; return (field, ← FieldValue.ofJson field value)) with
    | .error e => (.error e, g)
    | .ok pair =>
      match convertKeys rest (g.internValue pair.2) with
      | (.ok pairs, g) => (.ok (pair :: pairs), g)
      | (.error e, g) => (.error e, g)

/-- Fields with values written to their keys. -/
def setAll (fields : Fields) (pairs : List (Field × FieldValue)) : Fields :=
  pairs.foldl (fun fields (field, value) => (fields.set? field value).getD fields) fields

/-- Makes an entity of a map. There is none afterwards if a key does not fit, or if the class does
not take it. -/
def placeEntity (spec : EntitySpec) : Primitive (Option EntityId) := fun g =>
  match g.pool.spawn? with
  | none => (.error (.pool .exhausted), g)
  | some (id, pool) =>
    let g := { g with pool }.intern spec.classname
    match convertKeys spec.keys.entries g with
    | (.error e, g) => (.error e, g.withPool (g.pool.free id))
    | (.ok pairs, g) =>
      let g := g.modifyFields id fun fields =>
        setAll { fields with classname := some spec.classname } pairs
      let (accepted, g) := g.keep (g.pool.setUp id)
      (.ok (if accepted then some id else none), g)

end Game

end EntityScripting
