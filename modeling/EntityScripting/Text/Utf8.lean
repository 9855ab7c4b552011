/-!
# Byte strings and UTF-8

Scripts handle strings of arbitrary bytes, everything else handles text. `pieces` cuts bytes into
characters and ill-formed parts, each part as long as it can still be the start of a character;
`decode?` accepts well-formed bytes only, `lossy` puts a replacement character for each part.
-/

namespace EntityScripting.Text

/-- A string of arbitrary bytes. -/
abbrev Bytes := List UInt8

/-- The bytes of a text. -/
def utf8 (s : String) : Bytes := s.toUTF8.toList

/-- A part of a byte string: a character, an ill-formed part of this many bytes, or a character that
the end of the string cuts off. -/
inductive Piece where
  | char (c : Char)
  | broken (length : Nat)
  | cutOff
deriving DecidableEq, Repr

/-- What a first byte announces: a whole character, nothing, or a character of `length` bytes whose
second byte lies between `low` and `high`. -/
inductive Lead where
  | whole
  | none
  | start (length : Nat) (low high : UInt8)
deriving DecidableEq, Repr

def leadOf (a : UInt8) : Lead :=
  if a < 0x80 then .whole
  else if a < 0xC2 then .none
  else if a < 0xE0 then .start 2 0x80 0xBF
  else if a = 0xE0 then .start 3 0xA0 0xBF
  else if a = 0xED then .start 3 0x80 0x9F
  else if a < 0xF0 then .start 3 0x80 0xBF
  else if a = 0xF0 then .start 4 0x90 0xBF
  else if a < 0xF4 then .start 4 0x80 0xBF
  else if a = 0xF4 then .start 4 0x80 0x8F
  else .none

/-- Whether a byte continues a character. -/
def isTail (b : UInt8) : Bool := 0x80 ≤ b && b ≤ 0xBF

/-- The low six bits of a continuing byte. -/
def tailBits (b : UInt8) : Nat := b.toNat % 64

/-- The piece that begins with `a`, and how many of the bytes after `a` belong to it. -/
def firstPiece (a : UInt8) (rest : Bytes) : Piece × Nat :=
  match leadOf a with
  | .whole => (.char (Char.ofNat a.toNat), 0)
  | .none => (.broken 1, 0)
  | .start length low high =>
    match rest with
    | [] => (.cutOff, 0)
    | b :: rest =>
      if b < low || high < b then (.broken 1, 0)
      else if length = 2 then (.char (Char.ofNat (a.toNat % 32 * 64 + tailBits b)), 1)
      else match rest with
        | [] => (.cutOff, 1)
        | c :: rest =>
          if !isTail c then (.broken 2, 1)
          else if length = 3 then
            (.char (Char.ofNat ((a.toNat % 16 * 64 + tailBits b) * 64 + tailBits c)), 2)
          else match rest with
            | [] => (.cutOff, 2)
            | d :: _ =>
              if !isTail d then (.broken 3, 2)
              else
                (.char (Char.ofNat
                  (((a.toNat % 8 * 64 + tailBits b) * 64 + tailBits c) * 64 + tailBits d)), 3)

/-- The pieces of a byte string whose first `skip` bytes are already accounted for. -/
def piecesFrom : Nat → Bytes → List Piece
  | _, [] => []
  | skip + 1, _ :: rest => piecesFrom skip rest
  | 0, a :: rest =>
    let (piece, more) := firstPiece a rest
    piece :: piecesFrom more rest

def pieces (bs : Bytes) : List Piece := piecesFrom 0 bs

/-- The text with a replacement character for each ill-formed part. -/
def lossy (bs : Bytes) : String :=
  String.ofList ((pieces bs).map fun
    | .char c => c
    | _ => '\uFFFD')

/-- Where a byte string is ill-formed: the index of the part, and its length unless it is cut off by
the end. -/
structure Utf8Error where
  index : Nat
  length : Option Nat
deriving DecidableEq, Repr

def Utf8Error.message (e : Utf8Error) : String :=
  match e.length with
  | some n => s!"invalid utf-8 sequence of {n} bytes from index {e.index}"
  | none => s!"incomplete utf-8 byte sequence from index {e.index}"

/-- The characters of a list of pieces that begins at this index. -/
def assemble (index : Nat) : List Piece → Except Utf8Error (List Char)
  | [] => .ok []
  | .char c :: rest => (assemble (index + c.utf8Size) rest).map (c :: ·)
  | .broken length :: _ => .error ⟨index, some length⟩
  | .cutOff :: _ => .error ⟨index, none⟩

/-- The text of well-formed bytes. -/
def decode (bs : Bytes) : Except Utf8Error String := (assemble 0 (pieces bs)).map String.ofList

def decode? (bs : Bytes) : Option String := (decode bs).toOption

end EntityScripting.Text
