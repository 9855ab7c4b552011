import EntityScripting.Config.Basic
import EntityScripting.Variable.Codec

/-!
# Saves as JSON

A save is a record of two objects that map names to saved texts. Either may be left out.
-/

namespace EntityScripting

open Json

namespace SavedVariables

/-- The saved texts of an object; of two members of one name the later counts. -/
def textsOfJson? : Json → Option (SortedMap String String)
  | .object members => do
    return .ofList (← members.mapM fun entry => return (entry.1, ← toText? entry.2))
  | _ => none

def ofJson? (value : Json) : Option SavedVariables :=
  match record? ["vars", "persistent"] value with
  | some [vars, persistent] => do
    return {
      vars := ← orDefault {} textsOfJson? vars
      persistent := ← orDefault {} textsOfJson? persistent }
  | _ => none

def textsToJson (texts : SortedMap String String) : Json :=
  .object (texts.mapValues Json.string).entries

def toJson (saved : SavedVariables) : Json :=
  .object [("vars", textsToJson saved.vars), ("persistent", textsToJson saved.persistent)]

end SavedVariables

end EntityScripting
