import EntityScripting.Vec3

/-!
# Entity keys

An entity has a fixed set of keys, each of one kind of value: texts, vectors, floats and integers.
`Fields` holds the value of every key; a write names a key and is refused only if the value is of
another kind. The lemmas at the end say that a write is read back and leaves every other key alone.
-/

namespace EntityScripting

open Number

/-- The keys that hold a text. -/
inductive TextKey where
  | classname
  | team
  | targetname
  | target
  | killtarget
  | pathtarget
  | deathtarget
  | healthtarget
  | itemtarget
  | combattarget
  | scriptFunction
  | scriptArg
  | message
deriving DecidableEq, Repr, Inhabited

/-- The keys that hold a vector. -/
inductive VectorKey where
  | origin
  | angles
deriving DecidableEq, Repr, Inhabited

/-- The keys that hold a float. -/
inductive FloatKey where
  | delay
  | wait
  | speed
  | random
deriving DecidableEq, Repr, Inhabited

/-- The keys that hold an integer. -/
inductive IntegerKey where
  | count
  | dmg
  | maxHealth
  | health
deriving DecidableEq, Repr, Inhabited

/-- An entity key. -/
inductive Field where
  | text (key : TextKey)
  | vector (key : VectorKey)
  | float (key : FloatKey)
  | integer (key : IntegerKey)
deriving DecidableEq, Repr, Inhabited

/-- The kinds of values that keys hold. -/
inductive FieldKind where
  | text
  | vector
  | float
  | integer
deriving DecidableEq, Repr, Inhabited

/-- A value for a key; a text may be absent. -/
inductive FieldValue where
  | text (s : Option String)
  | vector (v : Vec3)
  | float (x : Single)
  | integer (n : Int32)
deriving DecidableEq, Repr, Inhabited

namespace TextKey

def all : List TextKey :=
  [.classname, .team, .targetname, .target, .killtarget, .pathtarget, .deathtarget, .healthtarget,
    .itemtarget, .combattarget, .scriptFunction, .scriptArg, .message]

def name : TextKey → String
  | .classname => "classname"
  | .team => "team"
  | .targetname => "targetname"
  | .target => "target"
  | .killtarget => "killtarget"
  | .pathtarget => "pathtarget"
  | .deathtarget => "deathtarget"
  | .healthtarget => "healthtarget"
  | .itemtarget => "itemtarget"
  | .combattarget => "combattarget"
  | .scriptFunction => "script_function"
  | .scriptArg => "script_arg"
  | .message => "message"

end TextKey

namespace VectorKey

def all : List VectorKey := [.origin, .angles]

def name : VectorKey → String
  | .origin => "origin"
  | .angles => "angles"

end VectorKey

namespace FloatKey

def all : List FloatKey := [.delay, .wait, .speed, .random]

def name : FloatKey → String
  | .delay => "delay"
  | .wait => "wait"
  | .speed => "speed"
  | .random => "random"

end FloatKey

namespace IntegerKey

def all : List IntegerKey := [.count, .dmg, .maxHealth, .health]

def name : IntegerKey → String
  | .count => "count"
  | .dmg => "dmg"
  | .maxHealth => "max_health"
  | .health => "health"

end IntegerKey

namespace Field

abbrev classname : Field := .text .classname

abbrev targetname : Field := .text .targetname

def all : List Field :=
  TextKey.all.map .text ++ VectorKey.all.map .vector ++ FloatKey.all.map .float
    ++ IntegerKey.all.map .integer

def name : Field → String
  | .text key => key.name
  | .vector key => key.name
  | .float key => key.name
  | .integer key => key.name

def kind : Field → FieldKind
  | .text _ => .text
  | .vector _ => .vector
  | .float _ => .float
  | .integer _ => .integer

/-- Whether scripts may assign the key. -/
def isWritable : Field → Bool
  | .text .classname | .text .team => false
  | .text _ => true
  | .vector _ => false
  | .float _ => true
  | .integer .maxHealth | .integer .health => false
  | .integer _ => true

/-- The key of this name. -/
def ofName? (name : String) : Option Field := all.find? fun field => field.name = name

theorem mem_all (field : Field) : field ∈ all := by
  cases field with
  | text key => cases key <;> decide
  | vector key => cases key <;> decide
  | float key => cases key <;> decide
  | integer key => cases key <;> decide

end Field

def FieldValue.kind : FieldValue → FieldKind
  | .text _ => .text
  | .vector _ => .vector
  | .float _ => .float
  | .integer _ => .integer

/-- The values of all keys of an entity. -/
structure Fields where
  classname : Option String := none
  team : Option String := none
  targetname : Option String := none
  target : Option String := none
  killtarget : Option String := none
  pathtarget : Option String := none
  deathtarget : Option String := none
  healthtarget : Option String := none
  itemtarget : Option String := none
  combattarget : Option String := none
  scriptFunction : Option String := none
  scriptArg : Option String := none
  message : Option String := none
  origin : Vec3 := {}
  angles : Vec3 := {}
  delay : Single := {}
  wait : Single := {}
  speed : Single := {}
  random : Single := {}
  count : Int32 := 0
  dmg : Int32 := 0
  maxHealth : Int32 := 0
  health : Int32 := 0
deriving DecidableEq, Repr, Inhabited

namespace Fields

def text (fields : Fields) : TextKey → Option String
  | .classname => fields.classname
  | .team => fields.team
  | .targetname => fields.targetname
  | .target => fields.target
  | .killtarget => fields.killtarget
  | .pathtarget => fields.pathtarget
  | .deathtarget => fields.deathtarget
  | .healthtarget => fields.healthtarget
  | .itemtarget => fields.itemtarget
  | .combattarget => fields.combattarget
  | .scriptFunction => fields.scriptFunction
  | .scriptArg => fields.scriptArg
  | .message => fields.message

def setText (fields : Fields) (s : Option String) : TextKey → Fields
  | .classname => { fields with classname := s }
  | .team => { fields with team := s }
  | .targetname => { fields with targetname := s }
  | .target => { fields with target := s }
  | .killtarget => { fields with killtarget := s }
  | .pathtarget => { fields with pathtarget := s }
  | .deathtarget => { fields with deathtarget := s }
  | .healthtarget => { fields with healthtarget := s }
  | .itemtarget => { fields with itemtarget := s }
  | .combattarget => { fields with combattarget := s }
  | .scriptFunction => { fields with scriptFunction := s }
  | .scriptArg => { fields with scriptArg := s }
  | .message => { fields with message := s }

def vector (fields : Fields) : VectorKey → Vec3
  | .origin => fields.origin
  | .angles => fields.angles

def setVector (fields : Fields) (v : Vec3) : VectorKey → Fields
  | .origin => { fields with origin := v }
  | .angles => { fields with angles := v }

def float (fields : Fields) : FloatKey → Single
  | .delay => fields.delay
  | .wait => fields.wait
  | .speed => fields.speed
  | .random => fields.random

def setFloat (fields : Fields) (x : Single) : FloatKey → Fields
  | .delay => { fields with delay := x }
  | .wait => { fields with wait := x }
  | .speed => { fields with speed := x }
  | .random => { fields with random := x }

def integer (fields : Fields) : IntegerKey → Int32
  | .count => fields.count
  | .dmg => fields.dmg
  | .maxHealth => fields.maxHealth
  | .health => fields.health

def setInteger (fields : Fields) (n : Int32) : IntegerKey → Fields
  | .count => { fields with count := n }
  | .dmg => { fields with dmg := n }
  | .maxHealth => { fields with maxHealth := n }
  | .health => { fields with health := n }

def get (fields : Fields) : Field → FieldValue
  | .text key => .text (fields.text key)
  | .vector key => .vector (fields.vector key)
  | .float key => .float (fields.float key)
  | .integer key => .integer (fields.integer key)

/-- The fields after a write, unless the value is of another kind than the key. -/
def set? (fields : Fields) : Field → FieldValue → Option Fields
  | .text key, .text s => some (fields.setText s key)
  | .vector key, .vector v => some (fields.setVector v key)
  | .float key, .float x => some (fields.setFloat x key)
  | .integer key, .integer n => some (fields.setInteger n key)
  | _, _ => none

/-- The text of a key that holds one. -/
def text? (fields : Fields) : Field → Option String
  | .text key => fields.text key
  | _ => none

/-! ### Reading after a write -/

theorem text_setText (fields : Fields) (s : Option String) (key other : TextKey) :
    (fields.setText s key).text other = if other = key then s else fields.text other := by
  cases key <;> cases other <;> rfl

theorem vector_setVector (fields : Fields) (v : Vec3) (key other : VectorKey) :
    (fields.setVector v key).vector other = if other = key then v else fields.vector other := by
  cases key <;> cases other <;> rfl

theorem float_setFloat (fields : Fields) (x : Single) (key other : FloatKey) :
    (fields.setFloat x key).float other = if other = key then x else fields.float other := by
  cases key <;> cases other <;> rfl

theorem integer_setInteger (fields : Fields) (n : Int32) (key other : IntegerKey) :
    (fields.setInteger n key).integer other = if other = key then n else fields.integer other := by
  cases key <;> cases other <;> rfl

end Fields

end EntityScripting
