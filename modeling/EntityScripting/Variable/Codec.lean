import EntityScripting.Variable.Table
import EntityScripting.Pool.Handle
import EntityScripting.Number.Numeral
import EntityScripting.Text.Blank
import EntityScripting.Text.Quoted

/-!
# Saved variables

A saved value is its type, a colon and a text; only the first colon separates. An entity is saved as
its slot, so it is found again only by what holds the slot when the save is read, and as `-1` when
it is gone. A table is read whole before anything is replaced.
-/

namespace EntityScripting

open Number

/-- Why a saved value cannot be read. -/
inductive CodecError where
  | missingSeparator (key : String)
  | unknownType (key tag : String)
  | malformed (key tag text : String)
  | entityOutOfRange (key : String) (index : Nat)
  | disallowed (key : String) (cause : ScriptError)
deriving DecidableEq, Repr, Inhabited

def CodecError.message : CodecError → String
  | .missingSeparator key => s!"variable {key} has no type separator"
  | .unknownType key tag => s!"variable {key} has unknown type {tag}"
  | .malformed key tag text => s!"variable {key} has malformed {tag} value {Text.quoted text}"
  | .entityOutOfRange key index => s!"variable {key} refers to entity {index} beyond the pool"
  | .disallowed key cause => s!"variable {key}: {cause.message}"

namespace ScriptValue

/-- The saved text of a value. -/
def encode (p : Pool) : ScriptValue → String
  | .integer n => s!"number:{intText n.toInt}"
  | .number x => s!"number:{x.storedText}"
  | .boolean b => if b then "boolean:true" else "boolean:false"
  | .text s => s!"string:{s}"
  | .entity h =>
    match h.resolve p with
    | some id => s!"entity:{natText id}"
    | none => "entity:-1"
  | .vector v => "vector:" ++ v.text ","

/-- Whether a number text is a float by its characters alone. -/
def looksFloat (cs : List Char) : Bool :=
  cs.any fun c => c = '.' || c = 'e' || c = 'E' || c = 'n' || c = 'N'

/-- A number text: an integer if it can be one, and a float otherwise. -/
def decodeNumber? (cs : List Char) : Option ScriptValue :=
  let float := (Double.ofText? cs).map ScriptValue.number
  if looksFloat cs then float
  else match int64? cs with
    | some n => some (.integer n)
    | none => float

/-- A slot, which must be one that the pool can have. -/
def decodeEntity (key : String) (p : Pool) (cs : List Char) : Except CodecError ScriptValue :=
  if cs = "-1".toList then .ok (.entity .invalid)
  else match unsigned? UInt64.size cs with
    | none => .error (.malformed key "entity" (String.ofList cs))
    | some index =>
      if p.capacity ≤ index then .error (.entityOutOfRange key index)
      else .ok (.entity (p.wrap index))

/-- Three floats between commas, with blanks around them or not. -/
def decodeVector? (cs : List Char) : Option ScriptValue :=
  let parts := (Text.splitAt (· = ',') cs).map fun part => Single.ofText? (Text.trimBlanks part)
  (parts.mapM id).bind fun parts => (Vec3.ofComponents? parts).map .vector

/-- The value of a saved text. -/
def decode (key : String) (p : Pool) (saved : String) : Except CodecError ScriptValue :=
  match Text.splitOnce ':' saved.toList with
  | none => .error (.missingSeparator key)
  | some (tag, cs) =>
    let orMalformed (tag : String) : Option ScriptValue → Except CodecError ScriptValue
      | some value => .ok value
      | none => .error (.malformed key tag (String.ofList cs))
    match String.ofList tag with
    | "number" => orMalformed "number" (decodeNumber? cs)
    | "boolean" => orMalformed "boolean"
      (if cs = "true".toList then some (.boolean true)
      else if cs = "false".toList then some (.boolean false)
      else none)
    | "string" => .ok (.text (String.ofList cs))
    | "entity" => decodeEntity key p cs
    | "vector" => orMalformed "vector" (decodeVector? cs)
    | other => .error (.unknownType key other)

end ScriptValue

/-- Both tables as a save holds them. -/
structure SavedVariables where
  vars : SortedMap String String := {}
  persistent : SortedMap String String := {}
deriving DecidableEq, Repr, Inhabited

namespace VariableTable

/-- Every value of the table in its saved text. -/
def snapshot (t : VariableTable) (p : Pool) : SortedMap String String :=
  t.entries.mapValues (ScriptValue.encode p)

/-- Reads saved entries into a table, the first key first; the first fault ends it. -/
def decodeEntries (p : Pool) (t : VariableTable) :
    List (String × String) → Except CodecError VariableTable
  | [] => .ok t
  | (key, saved) :: rest =>
    match ScriptValue.decode key p saved with
    | .error e => .error e
    | .ok value =>
      match t.set key (some value) with
      | .error e => .error (.disallowed key e)
      | .ok t => decodeEntries p t rest

/-- A fresh table of the saved entries. -/
def decode (kind : VariableKind) (p : Pool) (saved : SortedMap String String) :
    Except CodecError VariableTable :=
  decodeEntries p { kind } saved.entries

/-- The table with the saved entries put into it. -/
def restore (t : VariableTable) (p : Pool) (saved : SortedMap String String) :
    Except CodecError VariableTable :=
  (decode t.kind p saved).map t.absorb

end VariableTable

end EntityScripting
