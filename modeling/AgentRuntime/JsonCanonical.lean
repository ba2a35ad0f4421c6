/-
Canonical JSON texts.

A Go program that decodes a text into an `any` with `UseNumber` and encodes the
result again gets a text that depends on the value only: members are sorted by
name, the last one of a name is the one that counts, blanks are gone, and numbers
keep their literal.
-/
import AgentRuntime.JsonTexts

namespace GoJson

open GoString

/-- A write to a map, kept as a list sorted by key. -/
def insertMember (key : GoString) (v : Value) :
    List (GoString × Value) → List (GoString × Value)
  | [] => [(key, v)]
  | (k, w) :: ms =>
    if key = k then (key, v) :: ms
    else if key < k then (key, v) :: (k, w) :: ms
    else (k, w) :: insertMember key v ms

mutual

/-- Decoding into an `any`: an object becomes a map. -/
def generic : Value → Value
  | .array items => .array (genericItems items)
  | .object members => .object (genericMembers [] members)
  | .null => .null
  | .bool b => .bool b
  | .number literal => .number literal
  | .string s => .string s

def genericItems : List Value → List Value
  | [] => []
  | v :: vs => generic v :: genericItems vs

/-- The members are written into the map one after the other. -/
def genericMembers (written : List (GoString × Value)) :
    List (GoString × Value) → List (GoString × Value)
  | [] => written
  | (key, v) :: ms => genericMembers (insertMember key (generic v) written) ms

end

/-- Decode with `UseNumber` into an `any`, and encode the result; `none` for a
text that is not JSON. -/
def canonical (s : GoString) : Option GoString := (parse s).map fun v => render (generic v)

end GoJson
