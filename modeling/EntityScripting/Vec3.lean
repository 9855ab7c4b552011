import EntityScripting.Number.Notation

/-!
# Vectors

Three single-precision components. Every operation rounds after each step, and sums run from the
first component to the last.
-/

namespace EntityScripting

open Number

structure Vec3 where
  x : Single := {}
  y : Single := {}
  z : Single := {}
deriving DecidableEq, Repr, Inhabited

namespace Vec3

def zero : Vec3 := {}

def map (f : Single → Single) (v : Vec3) : Vec3 := ⟨f v.x, f v.y, f v.z⟩

def zip (f : Single → Single → Single) (v w : Vec3) : Vec3 := ⟨f v.x w.x, f v.y w.y, f v.z w.z⟩

def add : Vec3 → Vec3 → Vec3 := zip Single.add

def sub : Vec3 → Vec3 → Vec3 := zip Single.sub

def negate : Vec3 → Vec3 := map Single.negate

def scale (v : Vec3) (s : Single) : Vec3 := v.map (·.mul s)

def dot (v w : Vec3) : Single := ((v.x.mul w.x).add (v.y.mul w.y)).add (v.z.mul w.z)

def length (v : Vec3) : Single := (v.dot v).sqrt

def distance (v w : Vec3) : Single := (v.sub w).length

/-- The point at a fraction of the way from `v` to `w`. -/
def lerp (v w : Vec3) (fraction : Single) : Vec3 := v.add ((w.sub v).scale fraction)

/-- The vector of length one in this direction, or zero where the reciprocal of the length is not a
positive finite number. -/
def direction (v : Vec3) : Vec3 :=
  let reciprocal := Single.one.div v.length
  if reciprocal.isFinite && Single.zero.lt reciprocal then v.scale reciprocal else zero

/-- Whether all components are numerically equal. -/
def eq (v w : Vec3) : Bool := v.x.eq w.x && v.y.eq w.y && v.z.eq w.z

def components (v : Vec3) : List Single := [v.x, v.y, v.z]

def ofComponents? : List Single → Option Vec3
  | [x, y, z] => some ⟨x, y, z⟩
  | _ => none

/-- The components in plain text with a separator between them. -/
def text (separator : String) (v : Vec3) : String :=
  separator.intercalate (v.components.map Single.plainText)

end Vec3

end EntityScripting
