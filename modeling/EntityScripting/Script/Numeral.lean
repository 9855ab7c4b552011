import EntityScripting.Number.Numeral
import EntityScripting.Text.Utf8

/-!
# Numerals of scripts

A script has integers of 64 bits and floats, and a numeral says which it is: a decimal integer too
large for 64 bits is a float, a hexadecimal one wraps around. Texts that stand for numbers follow
the same rules, with blanks around them and a sign.
-/

namespace EntityScripting.Script

open Number Text

/-- A number of a script. -/
inductive Numeric where
  | integer (n : Int64)
  | number (x : Double)
deriving DecidableEq, Repr, Inhabited

namespace Numeral

/-- The blanks that scripts know. -/
def isSpace (c : Char) : Bool := c == ' ' || ('\t' ≤ c && c ≤ '\r')

def hexDigit? (c : Char) : Option Nat :=
  if c.isDigit then some (c.toNat - '0'.toNat)
  else if 'a' ≤ c ∧ c ≤ 'f' then some (c.toNat - 'a'.toNat + 10)
  else if 'A' ≤ c ∧ c ≤ 'F' then some (c.toNat - 'A'.toNat + 10)
  else none

def isHexDigit (c : Char) : Bool := (hexDigit? c).isSome

def hexValue (cs : List Char) : Nat := cs.foldl (fun n c => 16 * n + (hexDigit? c).getD 0) 0

/-- The digits of a hexadecimal numeral, after its mark. -/
def afterHexMark? : List Char → Option (List Char)
  | '0' :: x :: rest => if x = 'x' ∨ x = 'X' then some rest else none
  | _ => none

/-- An unsigned hexadecimal float, after its mark: digits with at most one point, and perhaps a
binary exponent. -/
def hexFloat? (negative : Bool) (cs : List Char) : Option Double :=
  let whole := cs.takeWhile isHexDigit
  let (fraction, rest) := match cs.dropWhile isHexDigit with
    | '.' :: rest => (rest.takeWhile isHexDigit, rest.dropWhile isHexDigit)
    | rest => ([], rest)
  let exponent? : Option Int := match rest with
    | [] => some 0
    | mark :: rest =>
      if mark = 'p' ∨ mark = 'P' then
        let (below, digits) := takeSign rest
        (natural? digits).map fun n =>
          let n := min n 100000
          if below then -(n : Int) else n
      else none
  if whole.isEmpty && fraction.isEmpty then none
  else exponent?.map fun e =>
    Double.ofReading (binary64.nearestScaled negative (hexValue (whole ++ fraction))
      (e - 4 * fraction.length))

/-- An unsigned integer numeral with a sign in front. -/
def integer? (negative : Bool) (cs : List Char) : Option Int64 :=
  match afterHexMark? cs with
  | some digits =>
    if digits.isEmpty || !digits.all isHexDigit then none
    else
      let n : Int := hexValue digits
      some (Int64.ofInt (if negative then -n else n))
  | none => (natural? cs).bind fun n =>
      int64OfInt? (if negative then -(n : Int) else n)

def float? (negative : Bool) (cs : List Char) : Option Double :=
  match afterHexMark? cs with
  | some rest => hexFloat? negative rest
  | none => (decimal? cs).map fun d => Double.ofReading (Decimal.toReading binary64 negative d)

/-- The number of a numeral without blanks. -/
def unsigned? (negative : Bool) (cs : List Char) : Option Numeric :=
  match integer? negative cs with
  | some n => some (.integer n)
  | none => (float? negative cs).map .number

end Numeral

/-- The number that a text stands for, if it stands for one. -/
def Numeric.ofBytes? (bs : Bytes) : Option Numeric :=
  let cs := (bs.map fun b => Char.ofNat b.toNat).dropWhile Numeral.isSpace
  let (negative, digits) := takeSign (cs.reverse.dropWhile Numeral.isSpace).reverse
  Numeral.unsigned? negative digits

end EntityScripting.Script
