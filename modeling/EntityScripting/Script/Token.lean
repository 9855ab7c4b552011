import EntityScripting.Script.Numeral
import EntityScripting.Script.Program

/-!
# Tokens

`Lexeme.scan?` cuts the bytes of a script into names, numerals, texts and marks; blanks and comments
are left out. Every token knows the line that it ends on.
-/

namespace EntityScripting.Script

open Number Text

/-- A token; keywords and punctuation are marks. -/
inductive Token where
  | name (x : Name)
  | numeral (n : Numeric)
  | text (s : Bytes)
  | mark (s : String)
deriving DecidableEq, Repr, Inhabited

structure Lexeme where
  token : Token
  line : Nat
deriving DecidableEq, Repr, Inhabited

namespace Lexeme

def keywords : List String :=
  ["and", "break", "do", "else", "elseif", "end", "false", "for", "function", "goto", "if", "in",
    "local", "nil", "not", "or", "repeat", "return", "then", "true", "until", "while"]

/-- The punctuation, a longer mark before the shorter ones that begin it. -/
def punctuation : List String :=
  ["...", "..", "==", "~=", "<=", ">=", "<<", ">>", "//", "::", "+", "-", "*", "/", "%", "^", "#",
    "&", "~", "|", "<", ">", "=", "(", ")", "\x7b", "\x7d", "[", "]", ";", ":", ",", "."]

def charOf (b : UInt8) : Char := Char.ofNat b.toNat

def byteOf (c : Char) : UInt8 := c.toNat.toUInt8

/-- Whether a byte is one of the ASCII characters of this kind. -/
def isByte (p : Char → Bool) (b : UInt8) : Bool := b < 0x80 && p (charOf b)

def isLetter : UInt8 → Bool := isByte fun c => c.isAlpha || c == '_'

def isDigit : UInt8 → Bool := isByte Char.isDigit

def isHexDigit : UInt8 → Bool := isByte Numeral.isHexDigit

def isSpace : UInt8 → Bool := isByte Numeral.isSpace

def isNewline (b : UInt8) : Bool := b == 10 || b == 13

/-- What follows a line break, which may be two different bytes. -/
def afterNewline (b : UInt8) : Bytes → Bytes
  | c :: rest => if isNewline c && c != b then rest else c :: rest
  | [] => []

/-- How many line breaks the bytes contain, and the bytes with each of them as one line feed. -/
def normalLines : Nat → Bytes → Nat × Bytes
  | 0, _ => (0, [])
  | _ + 1, [] => (0, [])
  | fuel + 1, b :: rest =>
    if isNewline b then
      let (n, bs) := normalLines fuel (afterNewline b rest)
      (n + 1, 10 :: bs)
    else
      let (n, bs) := normalLines fuel rest
      (n, b :: bs)

/-! ### Long brackets -/

/-- The level of a long bracket that opens here after its first byte, and what follows it. -/
def longOpening? (bs : Bytes) : Option (Nat × Bytes) :=
  let level := (bs.takeWhile (· == byteOf '=')).length
  match bs.drop level with
  | b :: rest => if b == byteOf '[' then some (level, rest) else none
  | [] => none

/-- The bytes before the closing bracket of a level, and those after it. -/
def longContent? (level : Nat) : Bytes → Option (Bytes × Bytes)
  | [] => none
  | b :: rest =>
    let closing := List.replicate level (byteOf '=') ++ [byteOf ']']
    if b == byteOf ']' && closing.isPrefixOf rest then some ([], rest.drop closing.length)
    else (longContent? level rest).map fun (content, after) => (b :: content, after)

/-- A long text after its opening: its bytes, the line breaks in it, and what follows. -/
def longText? (level : Nat) (bs : Bytes) : Option (Bytes × Nat × Bytes) :=
  match longContent? level bs with
  | none => none
  | some (content, after) =>
    let (lines, content') := normalLines content.length content
    match content' with
    | 10 :: rest => some (rest, lines, after)
    | _ => some (content', lines, after)

/-! ### Short texts -/

/-- The bytes of a code point below `2 ^ 31`, in as many bytes as it takes. -/
def encodePoint (n : Nat) : Bytes :=
  let tail (shift : Nat) : UInt8 := (0x80 + (n >>> shift) % 64).toUInt8
  if n < 0x80 then [n.toUInt8]
  else if n < 0x800 then [(0xC0 + (n >>> 6)).toUInt8, tail 0]
  else if n < 0x10000 then [(0xE0 + (n >>> 12)).toUInt8, tail 6, tail 0]
  else if n < 0x200000 then [(0xF0 + (n >>> 18)).toUInt8, tail 12, tail 6, tail 0]
  else if n < 0x4000000 then [(0xF8 + (n >>> 24)).toUInt8, tail 18, tail 12, tail 6, tail 0]
  else [(0xFC + (n >>> 30)).toUInt8, tail 24, tail 18, tail 12, tail 6, tail 0]

def simpleEscape? (c : Char) : Option UInt8 :=
  match c with
  | 'a' => some 7
  | 'b' => some 8
  | 'f' => some 12
  | 'n' => some 10
  | 'r' => some 13
  | 't' => some 9
  | 'v' => some 11
  | '\\' => some 92
  | '"' => some 34
  | '\'' => some 39
  | _ => none

/-- The blanks at the start, the line breaks among them counted, and what follows. -/
def skipBlanks : Nat → Bytes → Nat × Bytes
  | 0, bs => (0, bs)
  | _ + 1, [] => (0, [])
  | fuel + 1, b :: rest =>
    if isNewline b then
      let (n, after) := skipBlanks fuel (afterNewline b rest)
      (n + 1, after)
    else if isSpace b then skipBlanks fuel rest
    else (0, b :: rest)

def hexValue (bs : Bytes) : Nat := Numeral.hexValue (bs.map charOf)

def decimalValue (bs : Bytes) : Nat := digitsValue (bs.map charOf)

/-- An escape after its backslash: its bytes, the line breaks in it, and what follows. -/
def escape? : Bytes → Option (Bytes × Nat × Bytes)
  | [] => none
  | b :: rest =>
    if isNewline b then some ([10], 1, afterNewline b rest)
    else if isDigit b then
      let digits := (b :: rest).take 3 |>.takeWhile isDigit
      let value := decimalValue digits
      if value < 256 then some ([value.toUInt8], 0, (b :: rest).drop digits.length) else none
    else match charOf b with
      | 'x' =>
        let digits := (rest.take 2).takeWhile isHexDigit
        if digits.length = 2 then some ([(hexValue digits).toUInt8], 0, rest.drop 2) else none
      | 'z' =>
        let (lines, after) := skipBlanks rest.length rest
        some ([], lines, after)
      | 'u' =>
        match rest with
        | opening :: rest =>
          let digits := rest.takeWhile isHexDigit
          match rest.drop digits.length with
          | closing :: after =>
            if opening == byteOf '\x7b' && closing == byteOf '\x7d' && !digits.isEmpty
                && hexValue digits < 0x80000000 then
              some (encodePoint (hexValue digits), 0, after)
            else none
          | [] => none
        | [] => none
      | c => (simpleEscape? c).map fun byte => ([byte], 0, rest)

/-- A short text after its opening quote: its bytes, the line breaks in it, and what follows the
closing quote. -/
def shortText? (quote : UInt8) : Nat → Bytes → Option (Bytes × Nat × Bytes)
  | 0, _ => none
  | _ + 1, [] => none
  | fuel + 1, b :: rest =>
    if b == quote then some ([], 0, rest)
    else if isNewline b then none
    else if b == byteOf '\\' then
      match escape? rest with
      | none => none
      | some (bytes, lines, rest) =>
        (shortText? quote fuel rest).map fun (s, more, after) => (bytes ++ s, lines + more, after)
    else (shortText? quote fuel rest).map fun (s, lines, after) => (b :: s, lines, after)

/-! ### Numerals -/

/-- The longest run of bytes that a numeral could have: digits and points, and a sign after an
exponent mark. -/
def numeralBytes (isMark : UInt8 → Bool) : Bytes → Bytes
  | [] => []
  | [b] => if isMark b || isHexDigit b || b == byteOf '.' then [b] else []
  | b :: c :: rest =>
    if isMark b then
      if c == byteOf '+' || c == byteOf '-' then b :: c :: numeralBytes isMark rest
      else b :: numeralBytes isMark (c :: rest)
    else if isHexDigit b || b == byteOf '.' then b :: numeralBytes isMark (c :: rest)
    else []

/-- A numeral at the start, which no letter may follow. -/
def numeral? (bs : Bytes) : Option (Numeric × Bytes) :=
  let isMark : UInt8 → Bool := match bs.take 2 |>.map charOf with
    | ['0', 'x'] | ['0', 'X'] => isByte fun c => c == 'p' || c == 'P'
    | _ => isByte fun c => c == 'e' || c == 'E'
  let lead := match bs.take 2 |>.map charOf with
    | ['0', 'x'] | ['0', 'X'] => 2
    | _ => 1
  let run := bs.take lead ++ numeralBytes isMark (bs.drop lead)
  let rest := bs.drop run.length
  if rest.head?.any isLetter then none
  else (Numeral.unsigned? false (run.map charOf)).map (·, rest)

/-! ### Scanning -/

/-- The lexemes of the bytes from a line on. -/
def scanFrom : Nat → Nat → Bytes → Option (List Lexeme)
  | 0, _, _ => none
  | _ + 1, _, [] => some []
  | fuel + 1, line, b :: rest =>
    let emit (token : Token) (line : Nat) (rest : Bytes) : Option (List Lexeme) :=
      (scanFrom fuel line rest).map (⟨token, line⟩ :: ·)
    let long (bs : Bytes) : Option (Bytes × Nat × Bytes) :=
      if b == byteOf '[' then (longOpening? bs).bind fun (level, bs) => longText? level bs else none
    if isNewline b then scanFrom fuel (line + 1) (afterNewline b rest)
    else if isSpace b then scanFrom fuel line rest
    else if isLetter b then
      let word := (b :: rest).takeWhile fun b => isLetter b || isDigit b
      let after := (b :: rest).drop word.length
      match (keywords.find? fun s => utf8 s == word) with
      | some keyword => emit (.mark keyword) line after
      | none => emit (.name word) line after
    else if isDigit b || (b == byteOf '.' && rest.head?.any isDigit) then
      (numeral? (b :: rest)).bind fun (n, after) => emit (.numeral n) line after
    else if b == byteOf '"' || b == byteOf '\'' then
      (shortText? b (rest.length + 1) rest).bind fun (s, lines, after) =>
        emit (.text s) (line + lines) after
    else if b == byteOf '-' && rest.head? == some (byteOf '-') then
      let comment := rest.tail
      match comment with
      | c :: bs =>
        match (if c == byteOf '[' then longOpening? bs else none) with
        | some (level, bs) =>
          (longText? level bs).bind fun (_, lines, after) => scanFrom fuel (line + lines) after
        | none => scanFrom fuel line (comment.dropWhile fun b => !isNewline b)
      | [] => some []
    else match long rest with
      | some (s, lines, after) => emit (.text s) (line + lines) after
      | none =>
        let isUnfinished := (longOpening? rest).isSome || rest.head? == some (byteOf '=')
        if b == byteOf '[' && isUnfinished then none
        else match punctuation.find? fun s => (utf8 s).isPrefixOf (b :: rest) with
          | some s => emit (.mark s) line ((b :: rest).drop s.length)
          | none => none

/-- The lexemes of a script, or nothing if some bytes are no token. -/
def scan? (source : Bytes) : Option (List Lexeme) := scanFrom (source.length + 1) 1 source

end Lexeme

end EntityScripting.Script
