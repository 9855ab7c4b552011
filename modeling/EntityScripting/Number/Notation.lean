import EntityScripting.Number.Decimal
import EntityScripting.Number.Double

/-!
# Numbers as text

How the parts of a number text are put together: `positional`, `scientific` and the records that say
which of the two is used. Plain text never uses an exponent; stored numbers keep a mark that tells a
float from an integer; JSON and the scripts' own conversion have rules of their own.
-/

namespace EntityScripting.Number

/-- The characters of a natural number in decimal. -/
def natText (n : Nat) : String := String.ofList (Decimal.digitsOf n)

/-- The characters of an integer in decimal. -/
def intText (n : Int) : String := (if n < 0 then "-" else "") ++ natText n.natAbs

namespace Decimal

/-- How many places the leading digit stands above the units. -/
def order (d : Decimal) : Int := d.exponent + (digitsOf d.digits).length - 1

/-- All places written out, with a point only if there are places below the units. -/
def positional (d : Decimal) : List Char :=
  let cs := digitsOf d.digits
  if 0 ≤ d.exponent then cs ++ List.replicate d.exponent.toNat '0'
  else
    let below := (-d.exponent).toNat
    if below < cs.length then cs.take (cs.length - below) ++ '.' :: cs.drop (cs.length - below)
    else '0' :: '.' :: (List.replicate (below - cs.length) '0' ++ cs)

/-- The leading digit, the others after a point, and the exponent written by `power`. -/
def scientific (power : Int → List Char) (d : Decimal) : List Char :=
  match digitsOf d.digits with
  | [] => []
  | first :: rest =>
    first :: ((if rest.isEmpty then [] else '.' :: rest) ++ 'e' :: power d.order)

end Decimal

/-- A sign and the text of a magnitude. -/
def signed (negative : Bool) (cs : List Char) : String :=
  String.ofList (if negative then '-' :: cs else cs)

/-! ### Plain text -/

/-- A reading as plain text: the shortest digits, all places written out, no point for an integral
value. -/
def Reading.plainText (f : Format) : Reading → String
  | .nan _ => "NaN"
  | .infinite negative => signed negative "inf".toList
  | .finite negative m u => signed negative (Decimal.shortest f .up m u).positional

def Double.plainText (x : Double) : String := x.read.plainText binary64

def Single.plainText (x : Single) : String := x.read.plainText binary32

/-- The shortest digits in scientific notation, the exponent without a sign unless it is below
zero. -/
def Double.scientificText (x : Double) : String :=
  match x.read with
  | .finite negative m u =>
    signed negative ((Decimal.shortest binary64 .up m u).scientific fun e => (intText e).toList)
  | r => r.plainText binary64

/-- A float with a fixed number of places after the point. -/
def Single.placesText (count : Nat) (x : Single) : String :=
  match x.read with
  | .finite negative m u =>
    let cs := Decimal.digitsOf (Decimal.places count m u)
    let padded := List.replicate (count + 1 - cs.length) '0' ++ cs
    let whole := padded.length - count
    signed negative (padded.take whole ++ (if count = 0 then [] else '.' :: padded.drop whole))
  | r => r.plainText binary32

/-! ### Stored numbers -/

/-- `10 ^ 16`, from where integral floats are stored with an exponent. -/
def storedLimit : Double := Double.ofInt (pow10 16)

/-- A float as it is printed and saved: an integral value below `10 ^ 16` ends in `.0`, a larger one
has an exponent, so that the text always reads back as a float. -/
def Double.storedText (x : Double) : String :=
  if x.isIntegral then
    if x.abs.lt storedLimit then x.plainText ++ ".0" else x.scientificText
  else x.plainText

/-! ### JSON numbers -/

/-- A finite float in JSON: places are written out when the leading digit stands between the fifth
place below the units and the sixteenth above, and there is always a point or an exponent. -/
def Double.jsonText (x : Double) : String :=
  match x.read with
  | .finite negative m u =>
    let d := Decimal.shortest binary64 .even m u
    if -5 ≤ d.order ∧ d.order < 16 then
      signed negative (d.positional ++ (if 0 ≤ d.exponent then ['.', '0'] else []))
    else
      signed negative (d.scientific fun e =>
        (if e < 0 then '-' else '+') :: Decimal.digitsOf e.natAbs)
  | _ => "null"

/-! ### Numbers that scripts convert themselves -/

/-- An exponent with a sign and at least two digits. -/
def widePower (e : Int) : List Char :=
  let cs := Decimal.digitsOf e.natAbs
  (if e < 0 then '-' else '+') :: (if cs.length < 2 then '0' :: cs else cs)

/-- A float as a script writes it: fourteen significant digits, an exponent outside the places from
the fourth below the units to the thirteenth above, and `.0` after what would look like an
integer. -/
def Double.scriptText (x : Double) : String :=
  match x.read with
  | .nan negative => signed negative "nan".toList
  | .infinite negative => signed negative "inf".toList
  | .finite negative m u =>
    let d := Decimal.significant 14 m u
    if -4 ≤ d.order ∧ d.order < 14 then
      signed negative (d.positional ++ (if 0 ≤ d.exponent then ['.', '0'] else []))
    else signed negative (d.scientific widePower)

end EntityScripting.Number
