/-!
# Blank characters

The characters with the Unicode property `White_Space`, and the ways of cutting text at them.
-/

namespace EntityScripting.Text

/-- The Unicode property `White_Space`. -/
def isBlank (c : Char) : Bool :=
  let n := c.toNat
  (9 ≤ n && n ≤ 13) || n == 0x20 || n == 0x85 || n == 0xA0 || n == 0x1680
    || (0x2000 ≤ n && n ≤ 0x200A) || n == 0x2028 || n == 0x2029 || n == 0x202F || n == 0x205F
    || n == 0x3000

/-- The characters without the blanks at both ends. -/
def trimBlanks (cs : List Char) : List Char :=
  ((cs.dropWhile isBlank).reverse.dropWhile isBlank).reverse

/-- The parts between `isEnd` characters, the empty ones too. -/
def splitAt (isEnd : Char → Bool) : List Char → List (List Char)
  | [] => [[]]
  | c :: rest =>
    if isEnd c then [] :: splitAt isEnd rest
    else match splitAt isEnd rest with
      | [] => [[c]]
      | part :: parts => (c :: part) :: parts

/-- The runs of characters that are not blank. -/
def blankSeparated (cs : List Char) : List (List Char) :=
  (splitAt isBlank cs).filter fun part => !part.isEmpty

/-- What stands before and after the first `mark`. -/
def splitOnce (mark : Char) (cs : List Char) : Option (List Char × List Char) :=
  match cs.dropWhile (· != mark) with
  | [] => none
  | _ :: rest => some (cs.takeWhile (· != mark), rest)

end EntityScripting.Text
