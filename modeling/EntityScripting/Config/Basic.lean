import EntityScripting.Json.Reader
import EntityScripting.Pool.Basic

/-!
# Configuration

Where level scripts live and how large the pool is, with defaults for what is not given. In JSON
both records may be objects, whose unknown members are ignored, or arrays of their fields in order.

A path is the text between and around its slashes. Joining puts one slash between two parts, unless
the first is empty or ends in one already; an absolute second part stands for itself.
-/

namespace EntityScripting

namespace Path

def isAbsolute (path : String) : Bool := path.toList.head? = some '/'

/-- A path with another one below it. -/
def join (directory path : String) : String :=
  if isAbsolute path then path
  else if directory.isEmpty || directory.toList.getLast? = some '/' then directory ++ path
  else directory ++ "/" ++ path

end Path

structure ScriptConfig where
  gameDir : String := "baseq2"
  scriptDir : String := "scripts"
  extension : String := "lua"
  pool : PoolConfig := {}
deriving DecidableEq, Repr, Inhabited

namespace Json

/-- The text of a string. -/
def toText? : Json → Option String
  | .string s => some s
  | _ => none

/-- The number of an integer that is not negative. -/
def toNat? : Json → Option Nat
  | .number (.natural n) => some n
  | _ => none

/-- The values of a record's fields: from an object by name, no name given twice, or from an array
by position, with no more items than fields. -/
def record? (names : List String) : Json → Option (List (Option Json))
  | .object members =>
    if names.all fun name => memberCount members name ≤ 1 then some (names.map (member? members))
    else none
  | .array items =>
    if items.length ≤ names.length then some ((List.range names.length).map fun i => items[i]?)
    else none
  | _ => none

/-- The value of a field that may be left out. -/
def orDefault {α : Type} (default : α) (read : Json → Option α) : Option Json → Option α
  | none => some default
  | some value => read value

end Json

open Json

namespace PoolConfig

def ofJson? (value : Json) : Option PoolConfig :=
  match record? ["max_clients", "max_entities"] value with
  | some [maxClients, maxEntities] => do
    let base : PoolConfig := {}
    return {
      maxClients := ← orDefault base.maxClients toNat? maxClients
      maxEntities := ← orDefault base.maxEntities toNat? maxEntities }
  | _ => none

def toJson (config : PoolConfig) : Json :=
  .object [("max_clients", .ofNat config.maxClients), ("max_entities", .ofNat config.maxEntities)]

end PoolConfig

namespace ScriptConfig

/-- The default configuration for a game directory. -/
def ofGameDir (gameDir : String) : ScriptConfig := { gameDir }

def ofJson? (value : Json) : Option ScriptConfig :=
  match record? ["game_dir", "script_dir", "extension", "pool"] value with
  | some [gameDir, scriptDir, extension, pool] => do
    let base : ScriptConfig := {}
    return {
      gameDir := ← orDefault base.gameDir toText? gameDir
      scriptDir := ← orDefault base.scriptDir toText? scriptDir
      extension := ← orDefault base.extension toText? extension
      pool := ← orDefault base.pool PoolConfig.ofJson? pool }
  | _ => none

/-- The configuration that a JSON text holds. -/
def parse? (text : String) : Option ScriptConfig := (Json.parse? text).bind ofJson?

def toJson (config : ScriptConfig) : Json :=
  .object [("game_dir", .string config.gameDir), ("script_dir", .string config.scriptDir),
    ("extension", .string config.extension), ("pool", config.pool.toJson)]

/-- Where the script of a level is. -/
def scriptPath (config : ScriptConfig) (level : String) : String :=
  Path.join (Path.join config.gameDir config.scriptDir) (level ++ "." ++ config.extension)

end ScriptConfig

end EntityScripting
