import EntityScripting.Number.Notation

/-!
# JSON values

Members of an object keep the order and the repetitions of the text, and a number keeps whether it
was written as an integer: configurations and entity keys depend on both.
-/

namespace EntityScripting

open Number

/-- A JSON number: an integer of 64 bits, a float, or a text too large for either. -/
inductive JsonNumber where
  | natural (n : Nat)
  | negative (n : Int)
  | float (x : Double)
  | huge
deriving DecidableEq, Repr, Inhabited

namespace JsonNumber

/-- The nearest float; none for a number that is too large. -/
def toDouble? : JsonNumber → Option Double
  | .natural n => some (Double.ofInt n)
  | .negative n => some (Double.ofInt n)
  | .float x => some x
  | .huge => none

def text : JsonNumber → String
  | .natural n => natText n
  | .negative n => intText n
  | .float x => x.jsonText
  | .huge => "null"

end JsonNumber

inductive Json where
  | null
  | bool (b : Bool)
  | number (n : JsonNumber)
  | string (s : String)
  | array (items : List Json)
  | object (members : List (String × Json))
deriving Repr, Inhabited

namespace Json

def ofNat (n : Nat) : Json := .number (.natural n)

def ofInt (n : Int) : Json := if n < 0 then .number (.negative n) else .number (.natural n.toNat)

/-- The last member of this name. -/
def member? (members : List (String × Json)) (name : String) : Option Json :=
  (members.reverse.find? fun entry => entry.1 = name).map (·.2)

/-- How many members have this name. -/
def memberCount (members : List (String × Json)) (name : String) : Nat :=
  (members.filter fun entry => entry.1 = name).length

/-- The kind of a value, for messages. -/
def kindName : Json → String
  | .null => "null"
  | .bool _ => "boolean"
  | .number _ => "number"
  | .string _ => "string"
  | .array _ => "array"
  | .object _ => "object"

end Json

end EntityScripting
