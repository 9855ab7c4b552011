import EntityScripting.Number.Numeral
import EntityScripting.Text.Blank

/-!
# Arguments of the runner

Every argument is an option with one value, given as `--name value` or `--name=value`; only `--fire`
may be repeated. A value that stands by itself does not begin with a hyphen, unless it is nothing
else.
-/

namespace EntityScripting

open Number

/-- What the runner is asked to do. -/
structure Arguments where
  gameDir : String := "baseq2"
  config : Option String := none
  level : String
  entities : Option String := none
  fire : List String := []
  frames : Nat := 0
  frameTime : Single := Single.ofReading (Decimal.toReading binary32 false ⟨1, -1⟩)
  saveTo : Option String := none
  restoreFrom : Option String := none
deriving DecidableEq, Repr

namespace Arguments

def optionNames : List String :=
  ["game-dir", "config", "level", "entities", "fire", "frames", "frame-time", "save-json",
    "restore-json"]

/-- A word of the form `--name` or `--name=value`. -/
def option? (word : String) : Option (String × Option String) :=
  match word.toList with
  | '-' :: '-' :: cs =>
    let name := String.ofList (cs.takeWhile (· ≠ '='))
    if optionNames.contains name then
      some (name, match cs.dropWhile (· ≠ '=') with
        | [] => none
        | _ :: value => some (String.ofList value))
    else none
  | _ => none

/-- Whether a word can be the value of the option before it. -/
def isValue (word : String) : Bool := word = "-" || word.toList.head? ≠ some '-'

/-- The options of some words with their values, in order. -/
def options? : List String → Option (List (String × String))
  | [] => some []
  | ["--"] => some []
  | word :: rest =>
    match option? word with
    | none => none
    | some (name, some value) => (options? rest).map ((name, value) :: ·)
    | some (name, none) =>
      match rest with
      | value :: rest => if isValue value then (options? rest).map ((name, value) :: ·) else none
      | [] => none

/-- The values that an option was given. -/
def valuesOf (options : List (String × String)) (name : String) : List String :=
  (options.filter fun entry => entry.1 = name).map (·.2)

/-- The value of an option that may be given once; a refused value counts as a fault. -/
def once? {α : Type} (options : List (String × String)) (name : String)
    (read : String → Option α) : Option (Option α) :=
  match valuesOf options name with
  | [] => some none
  | [value] => (read value).map some
  | _ => none

/-- A path, which is not empty. -/
def path? (value : String) : Option String := if value.isEmpty then none else some value

/-- A count of 32 bits. -/
def count? (value : String) : Option Nat :=
  (int64? value.toList).bind fun n =>
    if 0 ≤ n.toInt ∧ n.toInt < UInt32.size then some n.toInt.toNat else none

/-- The arguments of some words, if they are well-formed. -/
def ofWords? (words : List String) : Option Arguments := do
  let options ← options? words
  let base : Arguments := { level := "" }
  return {
    gameDir := (← once? options "game-dir" path?).getD base.gameDir
    config := ← once? options "config" path?
    level := ← (← once? options "level" some)
    entities := ← once? options "entities" path?
    fire := valuesOf options "fire"
    frames := (← once? options "frames" count?).getD base.frames
    frameTime := (← once? options "frame-time" fun s => Single.ofText? s.toList).getD base.frameTime
    saveTo := ← once? options "save-json" path?
    restoreFrom := ← once? options "restore-json" path? }

/-- What is wrong with arguments that are well-formed, if anything is. -/
def problem? (args : Arguments) : Option String :=
  if (Text.trimBlanks args.level.toList).isEmpty then some "--level must name a level"
  else if !args.frameTime.isFinite || !Single.zero.lt args.frameTime then
    some "--frame-time must be positive"
  else if !args.fire.isEmpty && args.entities.isNone then some "--fire requires --entities"
  else none

end Arguments

end EntityScripting
