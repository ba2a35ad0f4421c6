/-
JSON texts as Go's `encoding/json` reads and writes them.

`parse` accepts exactly what `json.Valid` accepts (RFC 8259 with at most 10000
nested arrays and objects) and returns the value tree.  Escapes in strings are resolved
on the way; bytes that are not well-formed UTF-8 and unpaired surrogates are kept with a
mark by `exactParse` and become U+FFFD in `parse`, as in Go.  Numbers keep their literal,
because what they mean depends on the Go type they are decoded into.  An object keeps its
members in the order of the text, repetitions included.

* `exactParse`, `lossy`, `parse`, `valid` — reading;
* `quote`, `render` — writing, with the default HTML-safe escapes;
* `lookup`, `decodeString`, `decodeUint64` — how a member of an object reaches a
  field of a Go struct: names match up to case folding, the last member of a
  name wins, and `null` leaves the field alone.
-/
import AgentRuntime.Utf8

namespace GoJson

open GoString

/-- A JSON value. -/
inductive Value where
  | null
  | bool (b : Bool)
  | number (literal : GoString)
  | string (s : GoString)
  | array (items : List Value)
  | object (members : List (GoString × Value))

/-! ### Strings -/

/-- The value of a hexadecimal digit. -/
def hexValue (b : UInt8) : Option ℕ :=
  if 0x30 ≤ b && b ≤ 0x39 then some (b.toNat - 0x30)
  else if 0x61 ≤ b && b ≤ 0x66 then some (b.toNat - 0x61 + 10)
  else if 0x41 ≤ b && b ≤ 0x46 then some (b.toNat - 0x41 + 10)
  else none

/-- Four hexadecimal digits, and what follows them. -/
def hex4 : GoString → Option (ℕ × GoString)
  | a :: b :: c :: d :: t =>
    match hexValue a, hexValue b, hexValue c, hexValue d with
    | some w, some x, some y, some z => some (w * 4096 + x * 256 + y * 16 + z, t)
    | _, _, _, _ => none
  | _ => none

/-- The UTF-8 encoding of a code point; U+FFFD for a surrogate. -/
def encodeRune (n : ℕ) : GoString :=
  if n < 0x80 then [UInt8.ofNat n]
  else if n < 0x800 then [UInt8.ofNat (0xC0 + n / 64), UInt8.ofNat (0x80 + n % 64)]
  else if 0xD800 ≤ n ∧ n < 0xE000 then replacement
  else if n < 0x10000 then
    [UInt8.ofNat (0xE0 + n / 4096), UInt8.ofNat (0x80 + n / 64 % 64), UInt8.ofNat (0x80 + n % 64)]
  else [UInt8.ofNat (0xF0 + n / 262144), UInt8.ofNat (0x80 + n / 4096 % 64),
    UInt8.ofNat (0x80 + n / 64 % 64), UInt8.ofNat (0x80 + n % 64)]

/-- How a byte that is no UTF-8 is kept: behind a byte that UTF-8 does not have. -/
def strayByte (b : UInt8) : GoString := [0xFF, b]

/-- How an unpaired surrogate is kept. -/
def loneSurrogate (r : ℕ) : GoString := [0xFE, UInt8.ofNat (r / 256), UInt8.ofNat (r % 256)]

/-- What Go makes of a string that was read: either becomes U+FFFD. -/
def lossy : GoString → GoString
  | 0xFF :: _ :: t => replacement ++ lossy t
  | 0xFE :: _ :: _ :: t => replacement ++ lossy t
  | b :: t => b :: lossy t
  | [] => []

/-- What follows `\u`: one code unit, or a surrogate pair. -/
def unicodeEscape (s : GoString) : Option (GoString × GoString) :=
  match hex4 s with
  | none => none
  | some (r, t) =>
    if 0xD800 ≤ r ∧ r < 0xE000 then
      match t with
      | 0x5C :: 0x75 :: u =>
        match hex4 u with
        | some (r', v) =>
          if r < 0xDC00 ∧ 0xDC00 ≤ r' ∧ r' < 0xE000 then
            some (encodeRune ((r - 0xD800) * 1024 + (r' - 0xDC00) + 0x10000), v)
          else some (loneSurrogate r, t)
        | none => some (loneSurrogate r, t)
      | _ => some (loneSurrogate r, t)
    else some (encodeRune r, t)

/-- What the byte after a backslash stands for. -/
def simpleEscape (b : UInt8) : Option UInt8 :=
  if b = 0x22 ∨ b = 0x5C ∨ b = 0x2F then some b
  else if b = 0x62 then some 0x08
  else if b = 0x66 then some 0x0C
  else if b = 0x6E then some 0x0A
  else if b = 0x72 then some 0x0D
  else if b = 0x74 then some 0x09
  else none

/-- One character of a string literal: the bytes it stands for, and the rest. -/
def strItem : GoString → Option (GoString × GoString)
  | [] => none
  | a :: t =>
    if a = 0x5C then
      match t with
      | [] => none
      | e :: u =>
        if e = 0x75 then unicodeEscape u
        else (simpleEscape e).map fun b => ([b], u)
    else if a < 0x20 then none
    else match runeLen (a :: t) with
      | 0 => some (strayByte a, t)
      | n + 1 => some ((a :: t).take (n + 1), (a :: t).drop (n + 1))

/-- The body of a string literal up to its closing quote. -/
def strBody : ℕ → GoString → Option (GoString × GoString)
  | 0, _ => none
  | _ + 1, [] => none
  | fuel + 1, a :: t =>
    if a = 0x22 then some ([], t)
    else match strItem (a :: t) with
      | none => none
      | some (out, rest) => (strBody fuel rest).map fun p => (out ++ p.1, p.2)

/-- The string literal whose opening quote has been read. -/
def parseString (s : GoString) : Option (GoString × GoString) := strBody (s.length + 1) s

/-! ### Numbers and white space -/

def isSpace (b : UInt8) : Bool := b == 0x20 || b == 0x09 || b == 0x0A || b == 0x0D

def skipSpace (s : GoString) : GoString := s.dropWhile isSpace

/-- At least one digit. -/
def digits1 (s : GoString) : Option (GoString × GoString) :=
  if (s.takeWhile isDigit).isEmpty then none else some (s.takeWhile isDigit, s.dropWhile isDigit)

/-- `0`, or digits that do not start with `0`. -/
def intPart : GoString → Option (GoString × GoString)
  | 0x30 :: t => some ([0x30], t)
  | s => digits1 s

def fracPart : GoString → Option (GoString × GoString)
  | 0x2E :: t => (digits1 t).map fun p => (0x2E :: p.1, p.2)
  | s => some ([], s)

def expPart : GoString → Option (GoString × GoString)
  | [] => some ([], [])
  | e :: t =>
    if e = 0x65 ∨ e = 0x45 then
      match t with
      | [] => none
      | c :: u =>
        if c = 0x2B ∨ c = 0x2D then (digits1 u).map fun p => (e :: c :: p.1, p.2)
        else (digits1 t).map fun p => (e :: p.1, p.2)
    else some ([], e :: t)

/-- A number literal, and what follows it. -/
def parseNumber (s : GoString) : Option (GoString × GoString) :=
  let sign := s.takeWhile (· == 0x2D) |>.take 1
  match intPart (s.drop sign.length) with
  | none => none
  | some (i, t) =>
    match fracPart t with
    | none => none
    | some (f, u) => (expPart u).map fun p => (sign ++ i ++ f ++ p.1, p.2)

/-! ### Values -/

/-- A value that is neither a string, an array nor an object. -/
def parseScalar (s : GoString) : Option (Value × GoString) :=
  if (lit "true").isPrefixOf s then some (.bool true, s.drop 4)
  else if (lit "false").isPrefixOf s then some (.bool false, s.drop 5)
  else if (lit "null").isPrefixOf s then some (.null, s.drop 4)
  else (parseNumber s).map fun p => (.number p.1, p.2)

mutual

/-- One value.  Every call reads a byte, so `fuel` above the length of the input
never runs out; `depth` is the number of levels that may still be opened. -/
def parseValue : ℕ → ℕ → GoString → Option (Value × GoString)
  | 0, _, _ => none
  | fuel + 1, depth, s =>
    match skipSpace s with
    | 0x7B :: t =>
      if depth = 0 then none
      else if (skipSpace t).head? = some 0x7D then some (.object [], (skipSpace t).tail)
      else (parseMembers fuel (depth - 1) t).map fun p => (.object p.1, p.2)
    | 0x5B :: t =>
      if depth = 0 then none
      else if (skipSpace t).head? = some 0x5D then some (.array [], (skipSpace t).tail)
      else (parseItems fuel (depth - 1) t).map fun p => (.array p.1, p.2)
    | 0x22 :: t => (parseString t).map fun p => (.string p.1, p.2)
    | t => parseScalar t

/-- The elements of an array, up to its closing bracket. -/
def parseItems : ℕ → ℕ → GoString → Option (List Value × GoString)
  | 0, _, _ => none
  | fuel + 1, depth, s =>
    match parseValue fuel depth s with
    | none => none
    | some (v, t) =>
      match skipSpace t with
      | 0x2C :: u => (parseItems fuel depth u).map fun p => (v :: p.1, p.2)
      | 0x5D :: u => some ([v], u)
      | _ => none

/-- The members of an object, up to its closing brace. -/
def parseMembers : ℕ → ℕ → GoString → Option (List (GoString × Value) × GoString)
  | 0, _, _ => none
  | fuel + 1, depth, s =>
    match skipSpace s with
    | 0x22 :: t =>
      match parseString t with
      | none => none
      | some (key, u) =>
        match skipSpace u with
        | 0x3A :: w =>
          match parseValue fuel depth w with
          | none => none
          | some (v, x) =>
            match skipSpace x with
            | 0x2C :: y => (parseMembers fuel depth y).map fun p => ((key, v) :: p.1, p.2)
            | 0x7D :: y => some ([(key, v)], y)
            | _ => none
        | _ => none
    | _ => none

end

/-- A whole text: one value with nothing but white space after it. -/
def exactParse (s : GoString) : Option Value :=
  match parseValue (s.length + 1) 10000 s with
  | some (v, rest) => if skipSpace rest = [] then some v else none
  | none => none

mutual

/-- The value that Go decodes. -/
def lossyValue : Value → Value
  | .null => .null
  | .bool b => .bool b
  | .number literal => .number literal
  | .string s => .string (lossy s)
  | .array items => .array (lossyItems items)
  | .object members => .object (lossyMembers members)

def lossyItems : List Value → List Value
  | [] => []
  | v :: vs => lossyValue v :: lossyItems vs

def lossyMembers : List (GoString × Value) → List (GoString × Value)
  | [] => []
  | (key, v) :: ms => (lossy key, lossyValue v) :: lossyMembers ms

end

/-- A whole text as Go reads it. -/
def parse (s : GoString) : Option Value := (exactParse s).map lossyValue

/-- `json.Valid`. -/
def valid (s : GoString) : Bool := (parse s).isSome

/-! ### Writing -/

/-- `\\u00XX` for a byte below `0x80`. -/
def unicodeByte (b : UInt8) : GoString :=
  lit "\\u00" ++ [hexDigit (b.toNat / 16), hexDigit (b.toNat % 16)]

def escapeByte (b : UInt8) : GoString :=
  if b = 0x22 ∨ b = 0x5C then [0x5C, b]
  else if b = 0x08 then lit "\\b"
  else if b = 0x0C then lit "\\f"
  else if b = 0x0A then lit "\\n"
  else if b = 0x0D then lit "\\r"
  else if b = 0x09 then lit "\\t"
  -- control characters and, for embedding in HTML, `<`, `>` and `&`
  else if b < 0x20 ∨ b = 0x3C ∨ b = 0x3E ∨ b = 0x26 then unicodeByte b
  else [b]

def escapeRune : Rune → GoString
  | .stray _ => replacement
  | .encoded [b] => escapeByte b
  | .encoded e =>
    -- the line separators U+2028 and U+2029 are not valid in JavaScript strings
    if e = [0xE2, 0x80, 0xA8] then lit "\\u2028"
    else if e = [0xE2, 0x80, 0xA9] then lit "\\u2029"
    else e

/-- A Go string as a JSON string literal. -/
def quote (s : GoString) : GoString := 0x22 :: ((runes s).flatMap escapeRune ++ [0x22])

mutual

/-- A value as compact JSON text. -/
def render : Value → GoString
  | .null => lit "null"
  | .bool true => lit "true"
  | .bool false => lit "false"
  | .number literal => literal
  | .string s => quote s
  | .array items => 0x5B :: (renderItems items ++ [0x5D])
  | .object members => 0x7B :: (renderMembers members ++ [0x7D])

def renderItems : List Value → GoString
  | [] => []
  | [v] => render v
  | v :: w :: vs => render v ++ 0x2C :: renderItems (w :: vs)

def renderMembers : List (GoString × Value) → GoString
  | [] => []
  | [(key, v)] => quote key ++ 0x3A :: render v
  | (key, v) :: m :: ms => quote key ++ 0x3A :: (render v ++ 0x2C :: renderMembers (m :: ms))

end

/-! ### Decoding into Go structs -/

/-- The case folding with which member names are compared: ASCII letters lose
their case, and U+017F and U+212A count as `s` and `k`. -/
def foldName : GoString → GoString
  | 0xC5 :: 0xBF :: t => 0x53 :: foldName t
  | 0xE2 :: 0x84 :: 0xAA :: t => 0x4B :: foldName t
  | b :: t => (if 0x61 ≤ b && b ≤ 0x7A then b - 0x20 else b) :: foldName t
  | [] => []

/-- The members of an object that reach the field called `name`, in order. -/
def membersNamed (name : GoString) (members : List (GoString × Value)) : List Value :=
  (members.filter fun m => foldName m.1 == foldName name).map Prod.snd

/-- Decode members into a `string` field that holds `old`; `none` for a type error. -/
def decodeString (old : GoString) : List Value → Option GoString
  | [] => some old
  | .null :: vs => decodeString old vs
  | .string s :: vs => decodeString s vs
  | _ :: _ => none

/-- Decode members into a `uint64` field that holds `old`. -/
def decodeUint64 (old : UInt64) : List Value → Option UInt64
  | [] => some old
  | .null :: vs => decodeUint64 old vs
  | .number l :: vs =>
    if l.all isDigit ∧ decimalValue l < 2 ^ 64 then decodeUint64 (UInt64.ofNat (decimalValue l)) vs
    else none
  | _ :: _ => none

/-- Decode members into an `int` field that holds `old`. -/
def decodeInt64 (old : ℤ) : List Value → Option ℤ
  | [] => some old
  | .null :: vs => decodeInt64 old vs
  | .number (0x2D :: l) :: vs =>
    if l.all isDigit ∧ decimalValue l ≤ 2 ^ 63 then decodeInt64 (-decimalValue l) vs else none
  | .number l :: vs =>
    if l.all isDigit ∧ decimalValue l < 2 ^ 63 then decodeInt64 (decimalValue l) vs else none
  | _ :: _ => none

end GoJson
