import EntityScripting.Script.Argument

/-!
# Functions on texts

Positions count bytes from one on; a negative one counts from the end. Letters are those of ASCII.
-/

namespace EntityScripting.Script

open Number Text Activity

/-- The bytes between two positions, both counted. -/
def Bytes.between (s : Bytes) (first last : Int) : Bytes :=
  let length : Int := s.length
  let first :=
    if 0 < first then first else if first = 0 ∨ first < -length then 1 else length + first + 1
  let last := if length < last then length else if 0 ≤ last then last else length + last + 1
  (s.drop (first - 1).toNat).take (last - first + 1).toNat

/-- A text so many times, with a separator between. -/
def Bytes.repeated (s separator : Bytes) : Nat → Bytes
  | 0 => []
  | 1 => s
  | n + 1 => s ++ separator ++ Bytes.repeated s separator n

namespace TextFunction

/-- The byte of a letter's other case, for small letters and for capitals. -/
def upperByte (b : UInt8) : UInt8 := if 97 ≤ b && b ≤ 122 then b - 32 else b

def lowerByte (b : UInt8) : UInt8 := if 65 ≤ b && b ≤ 90 then b + 32 else b

/-- The bytes that numbers stand for. -/
def ofCodes (call : Invocation) : (count n : Nat) → Activity Bytes
  | 0, _ => pure []
  | count + 1, n => do
    let code ← call.integer n
    if 0 ≤ code ∧ code < 256 then
      return UInt8.ofNat code.toNat :: (← ofCodes call count (n + 1))
    else call.badArgument n "value out of range"

def run (f : TextFunction) (call : Invocation) : Activity (List Value) := do
  match f with
  | .byte => do
    let s ← call.bytes 1
    let first ← call.integerOr 2 1
    let last ← call.integerOr 3 first
    return (Bytes.between s first last).map fun b => .ofNat b.toNat
  | .char => return [.text (← ofCodes call call.args.length 1)]
  | .len => return [.ofNat (← call.bytes 1).length]
  | .lower => return [.text ((← call.bytes 1).map lowerByte)]
  | .rep => do
    let s ← call.bytes 1
    let count ← call.integer 2
    return [.text (Bytes.repeated s (← call.bytesOr 3 []) count.toNat)]
  | .reverse => return [.text (← call.bytes 1).reverse]
  | .sub => do
    let s ← call.bytes 1
    let first ← call.integer 2
    return [.text (Bytes.between s first (← call.integerOr 3 (-1)))]
  | .upper => return [.text ((← call.bytes 1).map upperByte)]
  | _ => call.fail (call.name ++ " is not available")

end TextFunction

end EntityScripting.Script
