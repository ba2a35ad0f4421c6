/-
JSON texts with their layout.

A `json.RawMessage` is a text that is passed around as it was written.  Between its
first reading and its last writing it is cut into pieces, its blanks are dropped
and its strings are spelled anew, and what matters is which bytes come out.  So
here a text is read into a tree that still knows every byte.

* `Text` — a value as it is written, with `Text.bytes` and the `Text.value` it means;
* `scan` — reading;
* `Text.marshalled` — what `json.Marshal` makes of a raw text: its blanks are dropped and
  its strings escaped for HTML;
* `Text.ofItems`, `Text.ofMembers` — what the encoder writes around the raw texts of a
  document, and `Text.items`, which takes an array apart;
* `rawLayout`, `storedRaw` — what is written for a raw field and read back from it;
* `keyed` — a `map[string]json.RawMessage`.
-/
import AgentRuntime.JsonStructs

namespace GoJson

open GoString

/-! ### Trees of bytes -/

/-- The name of a member: the blanks around it, what it spells and how. -/
structure KeyText where
  before : GoString
  name : GoString
  body : GoString
  after : GoString

mutual

/-- A value as it is written. -/
inductive Text where
  | null
  | bool (b : Bool)
  | number (literal : GoString)
  | string (s body : GoString)
  | emptyArray (pad : GoString)
  | array (items : TextItems)
  | emptyObject (pad : GoString)
  | object (members : TextMembers)

/-- The elements of an array, with the blanks around each. -/
inductive TextItems where
  | last (before : GoString) (item : Text) (after : GoString)
  | more (before : GoString) (item : Text) (after : GoString) (rest : TextItems)

/-- The members of an object. -/
inductive TextMembers where
  | last (key : KeyText) (before : GoString) (item : Text) (after : GoString)
  | more (key : KeyText) (before : GoString) (item : Text) (after : GoString) (rest : TextMembers)

end

def KeyText.bytes (k : KeyText) : GoString :=
  k.before ++ 0x22 :: (k.body ++ 0x22 :: (k.after ++ [0x3A]))

mutual

/-- The text itself. -/
def Text.bytes : Text → GoString
  | .null => lit "null"
  | .bool true => lit "true"
  | .bool false => lit "false"
  | .number l => l
  | .string _ body => 0x22 :: (body ++ [0x22])
  | .emptyArray pad => 0x5B :: (pad ++ [0x5D])
  | .array items => 0x5B :: (items.bytes ++ [0x5D])
  | .emptyObject pad => 0x7B :: (pad ++ [0x7D])
  | .object members => 0x7B :: (members.bytes ++ [0x7D])

def TextItems.bytes : TextItems → GoString
  | .last before item after => before ++ (item.bytes ++ after)
  | .more before item after rest => before ++ (item.bytes ++ (after ++ 0x2C :: rest.bytes))

def TextMembers.bytes : TextMembers → GoString
  | .last key before item after => key.bytes ++ (before ++ (item.bytes ++ after))
  | .more key before item after rest =>
    key.bytes ++ (before ++ (item.bytes ++ (after ++ 0x2C :: rest.bytes)))

end

mutual

/-- The value the text means. -/
def Text.value : Text → Value
  | .null => .null
  | .bool b => .bool b
  | .number l => .number l
  | .string s _ => .string s
  | .emptyArray _ => .array []
  | .array items => .array items.values
  | .emptyObject _ => .object []
  | .object members => .object members.values

def TextItems.values : TextItems → List Value
  | .last _ item _ => [item.value]
  | .more _ item _ rest => item.value :: rest.values

def TextMembers.values : TextMembers → List (GoString × Value)
  | .last key _ item _ => [(key.name, item.value)]
  | .more key _ item _ rest => (key.name, item.value) :: rest.values

end

/-! ### Reading -/

/-- The white space at the front. -/
def blanks (s : GoString) : GoString := s.takeWhile isSpace

/-- The string literal whose opening quote has been read, with its spelling. -/
def scanString (s : GoString) : Option (GoString × GoString × GoString) :=
  (parseString s).map fun p => (lossy p.1, s.take (s.length - (p.2.length + 1)), p.2)

def scanScalar (s : GoString) : Option (Text × GoString) :=
  if (lit "true").isPrefixOf s then some (.bool true, s.drop 4)
  else if (lit "false").isPrefixOf s then some (.bool false, s.drop 5)
  else if (lit "null").isPrefixOf s then some (.null, s.drop 4)
  else (parseNumber s).map fun p => (.number p.1, p.2)

mutual

/-- One value; `parseValue` with the bytes kept. -/
def scanValue : ℕ → ℕ → GoString → Option (Text × GoString)
  | 0, _, _ => none
  | fuel + 1, depth, s =>
    match skipSpace s with
    | 0x7B :: t =>
      if depth = 0 then none
      else if (skipSpace t).head? = some 0x7D then
        some (.emptyObject (blanks t), (skipSpace t).tail)
      else (scanMembers fuel (depth - 1) t).map fun p => (.object p.1, p.2)
    | 0x5B :: t =>
      if depth = 0 then none
      else if (skipSpace t).head? = some 0x5D then
        some (.emptyArray (blanks t), (skipSpace t).tail)
      else (scanItems fuel (depth - 1) t).map fun p => (.array p.1, p.2)
    | 0x22 :: t => (scanString t).map fun p => (.string p.1 p.2.1, p.2.2)
    | t => scanScalar t

def scanItems : ℕ → ℕ → GoString → Option (TextItems × GoString)
  | 0, _, _ => none
  | fuel + 1, depth, s =>
    match scanValue fuel depth s with
    | none => none
    | some (v, t) =>
      match skipSpace t with
      | 0x2C :: u =>
        (scanItems fuel depth u).map fun p => (.more (blanks s) v (blanks t) p.1, p.2)
      | 0x5D :: u => some (.last (blanks s) v (blanks t), u)
      | _ => none

def scanMembers : ℕ → ℕ → GoString → Option (TextMembers × GoString)
  | 0, _, _ => none
  | fuel + 1, depth, s =>
    match skipSpace s with
    | 0x22 :: t =>
      match scanString t with
      | none => none
      | some (name, body, u) =>
        match skipSpace u with
        | 0x3A :: w =>
          match scanValue fuel depth w with
          | none => none
          | some (v, x) =>
            match skipSpace x with
            | 0x2C :: y =>
              (scanMembers fuel depth y).map fun p =>
                (.more ⟨blanks s, name, body, blanks u⟩ (blanks w) v (blanks x) p.1, p.2)
            | 0x7D :: y =>
              some (.last ⟨blanks s, name, body, blanks u⟩ (blanks w) v (blanks x), y)
            | _ => none
        | _ => none
    | _ => none

end

/-- A whole text. -/
def scan (s : GoString) : Option Text :=
  match scanValue (s.length + 1) 10000 s with
  | some (t, rest) => if skipSpace rest = [] then some t else none
  | none => none

/-! ### Escapes for HTML -/

/-- Escape `<`, `>`, `&` and the separators U+2028 and U+2029. -/
def escapeBody : GoString → GoString
  | 0xE2 :: 0x80 :: 0xA8 :: t => lit "\\u2028" ++ escapeBody t
  | 0xE2 :: 0x80 :: 0xA9 :: t => lit "\\u2029" ++ escapeBody t
  | b :: t => (if b = 0x3C ∨ b = 0x3E ∨ b = 0x26 then unicodeByte b else [b]) ++ escapeBody t
  | [] => []

/-! ### Without blanks -/

def KeyText.compact (g : GoString → GoString) (k : KeyText) : KeyText := ⟨[], k.name, g k.body, []⟩

mutual

/-- The text without its blanks, every literal respelled by `g`. -/
def Text.compact (g : GoString → GoString) : Text → Text
  | .null => .null
  | .bool b => .bool b
  | .number l => .number l
  | .string s body => .string s (g body)
  | .emptyArray _ => .emptyArray []
  | .array items => .array (items.compact g)
  | .emptyObject _ => .emptyObject []
  | .object members => .object (members.compact g)

def TextItems.compact (g : GoString → GoString) : TextItems → TextItems
  | .last _ item _ => .last [] (item.compact g) []
  | .more _ item _ rest => .more [] (item.compact g) [] (rest.compact g)

def TextMembers.compact (g : GoString → GoString) : TextMembers → TextMembers
  | .last key _ item _ => .last (key.compact g) [] (item.compact g) []
  | .more key _ item _ rest => .more (key.compact g) [] (item.compact g) [] (rest.compact g)

end

/-- What `json.Marshal` makes of a `json.RawMessage`. -/
def Text.marshalled (t : Text) : Text := t.compact escapeBody

/-! ### Texts put together -/

def TextItems.of : Text → List Text → TextItems
  | t, [] => .last [] t []
  | t, u :: us => .more [] t [] (TextItems.of u us)

/-- The array of the texts. -/
def Text.ofItems : List Text → Text
  | [] => .emptyArray []
  | t :: ts => .array (TextItems.of t ts)

/-- The name of a member as the encoder writes it. -/
def KeyText.of (name : GoString) : KeyText :=
  ⟨[], toValidUTF8 name, (runes name).flatMap escapeRune, []⟩

def TextMembers.of : GoString × Text → List (GoString × Text) → TextMembers
  | m, [] => .last (KeyText.of m.1) [] m.2 []
  | m, m' :: ms => .more (KeyText.of m.1) [] m.2 [] (TextMembers.of m' ms)

/-- The object with the members. -/
def Text.ofMembers : List (GoString × Text) → Text
  | [] => .emptyObject []
  | m :: ms => .object (TextMembers.of m ms)

def TextItems.list : TextItems → List Text
  | .last _ item _ => [item]
  | .more _ item _ rest => item :: rest.list

/-- The elements of an array. -/
def Text.items : Text → Option (List Text)
  | .emptyArray _ => some []
  | .array items => some items.list
  | _ => none

/-! ### Fields -/

/-- The same for a value. -/
def Value.fields : Value → Option (List (GoString × Value))
  | .null => some []
  | .object ms => some ms
  | _ => none

/-- What a raw field holds; `none` if it is not there. -/
def memberValue (name : GoString) (ms : List (GoString × Value)) : Option Value :=
  (membersNamed name ms).getLast?

/-! ### Raw messages -/

/-- What is written for a raw message; a nil one is written as `null`. -/
def rawLayout (s : GoString) : Text := ((scan s).map Text.marshalled).getD .null

/-- The raw message after it was written and read back. -/
def storedRaw (s : GoString) : GoString := (rawLayout s).bytes

/-! ### Maps of raw messages -/

section Maps

variable {α : Type}

/-- Set a key of a map; the keys are kept in ascending order. -/
def setKey (key : GoString) (v : α) : List (GoString × α) → List (GoString × α)
  | [] => [(key, v)]
  | (k, w) :: ms =>
    if key = k then (k, v) :: ms
    else if key < k then (key, v) :: (k, w) :: ms
    else (k, w) :: setKey key v ms

/-- The map that an object is decoded into. -/
def keyed (ms : List (GoString × α)) : List (GoString × α) :=
  ms.foldl (fun written m => setKey m.1 m.2 written) []

end Maps

end GoJson
