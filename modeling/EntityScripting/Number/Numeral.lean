import EntityScripting.Number.Decimal
import EntityScripting.Number.Double
import EntityScripting.Number.Word

/-!
# Reading numbers

Texts of integers and floats, read strictly: every character counts, there are no blanks, and what
does not fit the type is refused. Floats may be given by name (`inf`, `infinity`, `nan`, in any
case); their decimals are rounded once.
-/

namespace EntityScripting.Number

/-- The number that a list of decimal digits stands for. -/
def digitsValue (cs : List Char) : Nat := cs.foldl (fun n c => 10 * n + (c.toNat - '0'.toNat)) 0

/-- A run of digits, with at least one, as a number. -/
def natural? (cs : List Char) : Option Nat :=
  if cs.isEmpty || !cs.all Char.isDigit then none else some (digitsValue cs)

/-- A sign, if there is one, and the rest. -/
def takeSign : List Char → Bool × List Char
  | '-' :: rest => (true, rest)
  | '+' :: rest => (false, rest)
  | rest => (false, rest)

/-- An unsigned integer below a limit; a plus sign is allowed. -/
def unsigned? (limit : Nat) (cs : List Char) : Option Nat :=
  let digits := match cs with
    | '+' :: rest => rest
    | rest => rest
  match natural? digits with
  | some n => if n < limit then some n else none
  | none => none

/-- A signed 64-bit integer. -/
def int64? (cs : List Char) : Option Int64 :=
  let (negative, digits) := takeSign cs
  (natural? digits).bind fun n => int64OfInt? (if negative then -(n : Int) else n)

/-- An exponent mark with its digits, or nothing; `none` if something else follows. -/
def exponentPart? : List Char → Option Int
  | [] => some 0
  | mark :: rest =>
    if mark = 'e' ∨ mark = 'E' then
      let (negative, digits) := takeSign rest
      (natural? digits).map fun n => if negative then -(n : Int) else n
    else none

/-- The decimal of an unsigned float text: digits with at most one point, at least one digit, and
perhaps an exponent. -/
def decimal? (cs : List Char) : Option Decimal :=
  let whole := cs.takeWhile Char.isDigit
  let (fraction, rest) := match cs.dropWhile Char.isDigit with
    | '.' :: rest => (rest.takeWhile Char.isDigit, rest.dropWhile Char.isDigit)
    | rest => ([], rest)
  if whole.isEmpty && fraction.isEmpty then none
  else (exponentPart? rest).map fun e => ⟨digitsValue (whole ++ fraction), e - fraction.length⟩

/-- A float text in the reading of a format. -/
def reading? (f : Format) (cs : List Char) : Option Reading :=
  let (negative, rest) := takeSign cs
  let name := String.ofList (rest.map Char.toLower)
  if name = "inf" || name = "infinity" then some (.infinite negative)
  else if name = "nan" then some (.nan negative)
  else (decimal? rest).map (Decimal.toReading f negative)

def Double.ofText? (cs : List Char) : Option Double := (reading? binary64 cs).map Double.ofReading

def Single.ofText? (cs : List Char) : Option Single := (reading? binary32 cs).map Single.ofReading

end EntityScripting.Number
