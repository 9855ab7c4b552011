import EntityScripting.Text.Utf8

/-!
# Built-in functions

The functions that a script finds ready-made, by the table that it finds them in. A function is
known by its constructor alone, so the same one is the same value wherever it is found.
-/

namespace EntityScripting.Script

/-- The functions at the top level. -/
inductive BaseFunction where
  | assert
  | error
  | ipairs
  | next
  | pairs
  | pcall
  | select
  | tonumber
  | tostring
  | type
  | print
deriving DecidableEq, Repr

/-- The functions of `script`. -/
inductive EngineFunction where
  | vector
  | spawn
  | find
  | foreach
  | filter
  | pick
  | values
  | context
deriving DecidableEq, Repr

/-- The methods of an entity. -/
inductive EntityMethod where
  | get
  | set
  | trigger
  | kill
  | message
  | give
  | player
  | monster
  | damageable
  | valid
deriving DecidableEq, Repr

/-- The methods of a vector. -/
inductive VectorMethod where
  | direction
  | distance
  | lerp
  | values
deriving DecidableEq, Repr

/-- The functions of `script.math`. -/
inductive MathFunction where
  | abs
  | ceil
  | floor
  | max
  | min
  | fmod
  | modf
  | log
  | exp
  | sqrt
  | sin
  | cos
  | tan
  | asin
  | acos
  | atan
  | deg
  | rad
  | tointeger
  | type
  | ult
  | random
  | randomseed
deriving DecidableEq, Repr

/-- The functions of `script.string`, which are also the methods of texts. -/
inductive TextFunction where
  | byte
  | char
  | dump
  | find
  | format
  | gmatch
  | gsub
  | len
  | lower
  | match
  | rep
  | reverse
  | sub
  | upper
  | pack
  | packsize
  | unpack
deriving DecidableEq, Repr

/-- The functions of `script.table`. -/
inductive TableFunction where
  | concat
  | insert
  | pack
  | unpack
  | remove
  | move
  | sort
deriving DecidableEq, Repr

inductive Builtin where
  | base (f : BaseFunction)
  /-- The step of an iteration over positions. -/
  | position
  | engine (f : EngineFunction)
  | entity (f : EntityMethod)
  | vector (f : VectorMethod)
  | math (f : MathFunction)
  | text (f : TextFunction)
  | table (f : TableFunction)
deriving DecidableEq, Repr

namespace BaseFunction

def all : List BaseFunction :=
  [.assert, .error, .ipairs, .next, .pairs, .pcall, .select, .tonumber, .tostring, .type, .print]

def name : BaseFunction → String
  | .assert => "assert"
  | .error => "error"
  | .ipairs => "ipairs"
  | .next => "next"
  | .pairs => "pairs"
  | .pcall => "pcall"
  | .select => "select"
  | .tonumber => "tonumber"
  | .tostring => "tostring"
  | .type => "type"
  | .print => "print"

end BaseFunction

namespace EngineFunction

def all : List EngineFunction :=
  [.vector, .spawn, .find, .foreach, .filter, .pick, .values, .context]

def name : EngineFunction → String
  | .vector => "vector"
  | .spawn => "spawn"
  | .find => "find"
  | .foreach => "foreach"
  | .filter => "filter"
  | .pick => "pick"
  | .values => "values"
  | .context => "context"

end EngineFunction

namespace EntityMethod

def all : List EntityMethod :=
  [.get, .set, .trigger, .kill, .message, .give, .player, .monster, .damageable, .valid]

def name : EntityMethod → String
  | .get => "get"
  | .set => "set"
  | .trigger => "trigger"
  | .kill => "kill"
  | .message => "message"
  | .give => "give"
  | .player => "player"
  | .monster => "monster"
  | .damageable => "damageable"
  | .valid => "valid"

end EntityMethod

namespace VectorMethod

def all : List VectorMethod := [.direction, .distance, .lerp, .values]

def name : VectorMethod → String
  | .direction => "direction"
  | .distance => "distance"
  | .lerp => "lerp"
  | .values => "values"

end VectorMethod

namespace MathFunction

def all : List MathFunction :=
  [.abs, .ceil, .floor, .max, .min, .fmod, .modf, .log, .exp, .sqrt, .sin, .cos, .tan, .asin, .acos,
    .atan, .deg, .rad, .tointeger, .type, .ult, .random, .randomseed]

def name : MathFunction → String
  | .abs => "abs"
  | .ceil => "ceil"
  | .floor => "floor"
  | .max => "max"
  | .min => "min"
  | .fmod => "fmod"
  | .modf => "modf"
  | .log => "log"
  | .exp => "exp"
  | .sqrt => "sqrt"
  | .sin => "sin"
  | .cos => "cos"
  | .tan => "tan"
  | .asin => "asin"
  | .acos => "acos"
  | .atan => "atan"
  | .deg => "deg"
  | .rad => "rad"
  | .tointeger => "tointeger"
  | .type => "type"
  | .ult => "ult"
  | .random => "random"
  | .randomseed => "randomseed"

end MathFunction

namespace TextFunction

def all : List TextFunction :=
  [.byte, .char, .dump, .find, .format, .gmatch, .gsub, .len, .lower, .match, .rep, .reverse, .sub,
    .upper, .pack, .packsize, .unpack]

def name : TextFunction → String
  | .byte => "byte"
  | .char => "char"
  | .dump => "dump"
  | .find => "find"
  | .format => "format"
  | .gmatch => "gmatch"
  | .gsub => "gsub"
  | .len => "len"
  | .lower => "lower"
  | .match => "match"
  | .rep => "rep"
  | .reverse => "reverse"
  | .sub => "sub"
  | .upper => "upper"
  | .pack => "pack"
  | .packsize => "packsize"
  | .unpack => "unpack"

end TextFunction

namespace TableFunction

def all : List TableFunction := [.concat, .insert, .pack, .unpack, .remove, .move, .sort]

def name : TableFunction → String
  | .concat => "concat"
  | .insert => "insert"
  | .pack => "pack"
  | .unpack => "unpack"
  | .remove => "remove"
  | .move => "move"
  | .sort => "sort"

end TableFunction

namespace Builtin

/-- The table that a function is found in, and its name there. -/
def path : Builtin → String × String
  | .base f => ("", f.name)
  | .position => ("", "for iterator")
  | .engine f => ("script", f.name)
  | .entity f => ("EntityHandle", f.name)
  | .vector f => ("ScriptVector", f.name)
  | .math f => ("math", f.name)
  | .text f => ("string", f.name)
  | .table f => ("table", f.name)

/-- A text that tells the functions apart. -/
def label (b : Builtin) : String := b.path.1 ++ "." ++ b.path.2

end Builtin

end EntityScripting.Script
