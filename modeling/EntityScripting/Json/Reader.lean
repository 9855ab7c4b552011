import EntityScripting.Json.Basic
import EntityScripting.Number.Numeral

/-!
# Reading JSON

`Json.parse?` accepts one value with blanks around it. Nesting is limited to 127 levels. The float
of a number text is made from as many leading digits as fit 64 bits, by one multiplication or
division by a power of ten, so a long text may differ from its nearest float in the last bit.
-/

namespace EntityScripting.Json

open Number

/-- Blanks between the parts of a text. -/
def isSpace (c : Char) : Bool := c = ' ' || c = '\n' || c = '\t' || c = '\r'

def skipSpaces (cs : List Char) : List Char := cs.dropWhile isSpace

/-! ### Numbers -/

/-- The number with as many digits appended as keep it below `2 ^ 64`, and the digits left over. -/
def absorb : Nat → List Char → Nat × List Char
  | n, [] => (n, [])
  | n, c :: rest =>
    let next := 10 * n + (c.toNat - '0'.toNat)
    if next < UInt64.size then absorb next rest else (n, c :: rest)

/-- `10 ^ 308`, the largest power of ten that is a float. -/
def largestPower : Int := 308

/-- A float scaled by a power of ten; small powers are divided out in steps. -/
def scale : Nat → Double → Int → Option Double
  | 0, f, _ => some f
  | fuel + 1, f, e =>
    if e.natAbs ≤ largestPower.natAbs then
      if 0 ≤ e then
        let product := f.mul (Double.ofInt (pow10 e))
        if product.isFinite then some product else none
      else some (f.div (Double.ofInt (pow10 (-e))))
    else if f.eq Double.zero then some f
    else if 0 ≤ e then none
    else scale fuel (f.div (Double.ofInt (pow10 largestPower))) (e + largestPower)

/-- The float of a significand and an exponent. -/
def floatOf (negative : Bool) (significand : Nat) (exponent : Int) : JsonNumber :=
  match scale 16 (Double.ofInt significand) exponent with
  | some f => .float (if negative then f.negate else f)
  | none => .huge

/-- The number of its parts: the digits before the point, those after it if there is a point, and
the signed exponent if there is one. -/
def numberOf (negative : Bool) (whole : List Char) (fraction : Option (List Char))
    (exponent : Option (Bool × List Char)) : JsonNumber :=
  let (significand, dropped) := absorb 0 whole
  let before : Int := dropped.length
  let (significand, after) := match fraction with
    | none => (significand, 0)
    | some digits =>
      let (longer, left) := absorb significand digits
      (longer, digits.length - left.length)
  match fraction, exponent with
  | none, none =>
    if !dropped.isEmpty then floatOf negative significand before
    else if !negative then .natural significand
    else if significand = 0 || 0x8000000000000000 < significand then
      .float (Double.ofInt significand).negate
    else .negative (-(significand : Int))
  | _, none => floatOf negative significand (before - after)
  | _, some (below, digits) =>
    let size := digitsValue digits
    if 0x80000000 ≤ size then
      if significand ≠ 0 && !below then .huge
      else .float (if negative then Double.zero.negate else Double.zero)
    else
      let shift : Int := if below then -(size : Int) else size
      floatOf negative significand (before - after + shift)

/-- A number at the start of the characters. -/
def parseNumber (cs : List Char) : Option (JsonNumber × List Char) :=
  let (negative, cs) := match cs with
    | '-' :: rest => (true, rest)
    | rest => (false, rest)
  let whole := cs.takeWhile Char.isDigit
  let rest := cs.dropWhile Char.isDigit
  if whole.isEmpty || (1 < whole.length && whole.head? = some '0') then none
  else
    let withFraction : Option (Option (List Char) × List Char) := match rest with
      | '.' :: rest =>
        let digits := rest.takeWhile Char.isDigit
        if digits.isEmpty then none else some (some digits, rest.dropWhile Char.isDigit)
      | rest => some (none, rest)
    withFraction.bind fun (fraction, rest) =>
      match rest with
      | [] => some (numberOf negative whole fraction none, [])
      | c :: after =>
        if c = 'e' || c = 'E' then
          let (below, after) := takeSign after
          let digits := after.takeWhile Char.isDigit
          if digits.isEmpty then none
          else some (numberOf negative whole fraction (some (below, digits)),
            after.dropWhile Char.isDigit)
        else some (numberOf negative whole fraction none, rest)

/-! ### Strings -/

def hexValue? (c : Char) : Option Nat :=
  if c.isDigit then some (c.toNat - '0'.toNat)
  else if 'a' ≤ c ∧ c ≤ 'f' then some (c.toNat - 'a'.toNat + 10)
  else if 'A' ≤ c ∧ c ≤ 'F' then some (c.toNat - 'A'.toNat + 10)
  else none

def hex4 (a b c d : Char) : Option Nat := do
  return ((← hexValue? a) * 16 + (← hexValue? b)) * 256 + (← hexValue? c) * 16 + (← hexValue? d)

def shortEscape? : Char → Option Char
  | '"' => some '"'
  | '\\' => some '\\'
  | '/' => some '/'
  | 'b' => some '\x08'
  | 'f' => some '\x0c'
  | 'n' => some '\n'
  | 'r' => some '\r'
  | 't' => some '\t'
  | _ => none

/-- The rest of a string after its opening quote, and what follows the closing one. A code point
above U+FFFF is written as a pair of escapes. -/
def parseString : List Char → Option (List Char × List Char)
  | [] => none
  | '"' :: rest => some ([], rest)
  | '\\' :: 'u' :: a :: b :: c :: d :: '\\' :: 'u' :: e :: f :: g :: h :: rest =>
    match hex4 a b c d with
    | none => none
    | some high =>
      if 0xD800 ≤ high ∧ high < 0xDC00 then
        match hex4 e f g h with
        | none => none
        | some low =>
          if 0xDC00 ≤ low ∧ low < 0xE000 then
            (parseString rest).map fun (cs, after) =>
              (Char.ofNat (0x10000 + (high - 0xD800) * 1024 + (low - 0xDC00)) :: cs, after)
          else none
      else if 0xDC00 ≤ high ∧ high < 0xE000 then none
      else (parseString ('\\' :: 'u' :: e :: f :: g :: h :: rest)).map fun (cs, after) =>
        (Char.ofNat high :: cs, after)
  | '\\' :: 'u' :: a :: b :: c :: d :: rest =>
    match hex4 a b c d with
    | none => none
    | some n =>
      if 0xD800 ≤ n ∧ n < 0xE000 then none
      else (parseString rest).map fun (cs, after) => (Char.ofNat n :: cs, after)
  | '\\' :: c :: rest =>
    match shortEscape? c with
    | none => none
    | some e => (parseString rest).map fun (cs, after) => (e :: cs, after)
  | c :: rest =>
    if c.toNat < 0x20 ∨ c = '\\' then none
    else (parseString rest).map fun (cs, after) => (c :: cs, after)

/-! ### Values -/

/-- The characters after a word. -/
def afterWord? (word cs : List Char) : Option (List Char) :=
  if word.isPrefixOf cs then some (cs.drop word.length) else none

mutual

/-- A value at the start of the characters. `fuel` bounds the steps, `depth` the nesting. -/
def parseValue : Nat → Nat → List Char → Option (Json × List Char)
  | 0, _, _ => none
  | fuel + 1, depth, cs =>
    match skipSpaces cs with
    | 'n' :: rest => (afterWord? "ull".toList rest).map fun rest => (.null, rest)
    | 't' :: rest => (afterWord? "rue".toList rest).map fun rest => (.bool true, rest)
    | 'f' :: rest => (afterWord? "alse".toList rest).map fun rest => (.bool false, rest)
    | '"' :: rest => (parseString rest).map fun (s, rest) => (.string (String.ofList s), rest)
    | '[' :: rest =>
      if depth ≤ 1 then none
      else match skipSpaces rest with
        | ']' :: rest => some (.array [], rest)
        | rest => (parseItems fuel (depth - 1) rest).map fun (items, rest) => (.array items, rest)
    | '\x7b' :: rest =>
      if depth ≤ 1 then none
      else match skipSpaces rest with
        | '\x7d' :: rest => some (.object [], rest)
        | rest =>
          (parseMembers fuel (depth - 1) rest).map fun (members, rest) => (.object members, rest)
    | rest => (parseNumber rest).map fun (n, rest) => (.number n, rest)

/-- The items of an array, the first one at the start, and what follows the closing bracket. -/
def parseItems : Nat → Nat → List Char → Option (List Json × List Char)
  | 0, _, _ => none
  | fuel + 1, depth, cs =>
    match parseValue fuel depth cs with
    | none => none
    | some (item, rest) =>
      match skipSpaces rest with
      | ',' :: rest => (parseItems fuel depth rest).map fun (items, rest) => (item :: items, rest)
      | ']' :: rest => some ([item], rest)
      | _ => none

/-- The members of an object, the first one at the start, and what follows the closing brace. -/
def parseMembers : Nat → Nat → List Char → Option (List (String × Json) × List Char)
  | 0, _, _ => none
  | fuel + 1, depth, cs =>
    match skipSpaces cs with
    | '"' :: rest =>
      match parseString rest with
      | none => none
      | some (name, rest) =>
        match skipSpaces rest with
        | ':' :: rest =>
          match parseValue fuel depth rest with
          | none => none
          | some (value, rest) =>
            let entry := (String.ofList name, value)
            match skipSpaces rest with
            | ',' :: rest =>
              (parseMembers fuel depth rest).map fun (members, rest) => (entry :: members, rest)
            | '\x7d' :: rest => some ([entry], rest)
            | _ => none
        | _ => none
    | _ => none

end

/-- The one value of a text. -/
def parse? (s : String) : Option Json :=
  match parseValue (s.length + 1) 128 s.toList with
  | some (value, rest) => if (skipSpaces rest).isEmpty then some value else none
  | none => none

end EntityScripting.Json
