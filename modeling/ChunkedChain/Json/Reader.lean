import ChunkedChain.Json.Number

/-!
# Reading JSON

A strict reader of one JSON document. Objects keep the order of their keys; a key that comes again keeps
its first place and takes the last value. Texts hold no bare control characters and no half of a
surrogate pair. Nesting is limited.
-/

namespace ChunkedChain.Json

def skipBlank (text : List Char) : List Char :=
  text.dropWhile fun c => c == ' ' || c == '\n' || c == '\t' || c == '\r'

/-- Reads four hexadecimal digits. -/
def readUnit : List Char → Option (Nat × List Char)
  | a :: b :: c :: d :: rest => (Numeral.valueIn? 16 [a, b, c, d]).map (·, rest)
  | _ => none

/-- Reads the rest of an escape written as a code unit; the first half of a pair needs the second. -/
def readUnicode (text : List Char) : Option (Char × List Char) := do
  let (unit, rest) ← readUnit text
  if 0xD800 ≤ unit ∧ unit ≤ 0xDBFF then
    match rest with
    | '\\' :: 'u' :: rest =>
      let (low, rest) ← readUnit rest
      guard (0xDC00 ≤ low ∧ low ≤ 0xDFFF)
      return (Char.ofNat (0x10000 + (unit - 0xD800) * 0x400 + (low - 0xDC00)), rest)
    | _ => none
  else
    guard (unit < 0xDC00 ∨ 0xDFFF < unit)
    return (Char.ofNat unit, rest)

def readEscape : List Char → Option (Char × List Char)
  | '\x22' :: rest => some ('\x22', rest)
  | '\\' :: rest => some ('\\', rest)
  | '/' :: rest => some ('/', rest)
  | 'b' :: rest => some ('\x08', rest)
  | 'f' :: rest => some ('\x0c', rest)
  | 'n' :: rest => some ('\n', rest)
  | 'r' :: rest => some ('\r', rest)
  | 't' :: rest => some ('\t', rest)
  | 'u' :: rest => readUnicode rest
  | _ => none

/-- Reads a text after its opening quote; `read` holds its characters so far, last first. -/
def readText : (fuel : Nat) → (read : List Char) → List Char → Option (String × List Char)
  | 0, _, _ => none
  | _, _, [] => none
  | fuel + 1, read, c :: rest =>
    if c == '\x22' then some (String.ofList read.reverse, rest)
    else if c == '\\' then do
      let (escaped, rest) ← readEscape rest
      readText fuel (escaped :: read) rest
    else if c.toNat < 0x20 then none
    else readText fuel (c :: read) rest

mutual

/-- Reads a value; `depth` more levels may open in it. -/
def readValue : (fuel : Nat) → (depth : Nat) → List Char → Option (Value × List Char)
  | 0, _, _ => none
  | fuel + 1, depth, text =>
    match skipBlank text with
    | 'n' :: 'u' :: 'l' :: 'l' :: rest => some (.null, rest)
    | 't' :: 'r' :: 'u' :: 'e' :: rest => some (.bool true, rest)
    | 'f' :: 'a' :: 'l' :: 's' :: 'e' :: rest => some (.bool false, rest)
    | '\x22' :: rest => (readText fuel [] rest).map fun (s, rest) => (.text s, rest)
    | '[' :: rest =>
      match depth with
      | 0 => none
      | depth + 1 =>
        match skipBlank rest with
        | ']' :: rest => some (.list [], rest)
        | rest => readItems fuel depth [] rest
    | '\x7b' :: rest =>
      match depth with
      | 0 => none
      | depth + 1 =>
        match skipBlank rest with
        | '\x7d' :: rest => some (.object [], rest)
        | rest => readFields fuel depth [] rest
    | rest => readNumber rest

/-- Reads the items of a list up to its end; `read` holds those before, last first. -/
def readItems : (fuel : Nat) → (depth : Nat) → (read : List Value) → List Char →
    Option (Value × List Char)
  | 0, _, _, _ => none
  | fuel + 1, depth, read, text => do
    let (item, rest) ← readValue fuel depth text
    match skipBlank rest with
    | ',' :: rest => readItems fuel depth (item :: read) rest
    | ']' :: rest => return (.list (item :: read).reverse, rest)
    | _ => none

/-- Reads the fields of an object up to its end; `read` holds those before. -/
def readFields : (fuel : Nat) → (depth : Nat) → (read : Entries Value) → List Char →
    Option (Value × List Char)
  | 0, _, _, _ => none
  | fuel + 1, depth, read, text => do
    match skipBlank text with
    | '\x22' :: rest =>
      let (key, rest) ← readText fuel [] rest
      match skipBlank rest with
      | ':' :: rest =>
        let (value, rest) ← readValue fuel depth rest
        match skipBlank rest with
        | ',' :: rest => readFields fuel depth (Entries.insert key value read) rest
        | '\x7d' :: rest => return (.object (Entries.insert key value read), rest)
        | _ => none
      | _ => none
    | _ => none

end

/-- How deep lists and objects may stand in each other in a report. -/
def maxDepth : Nat := 127

/-- The value of a document in which no more than `depth` levels stand in each other. -/
def parse? (depth : Nat) (document : String) : Option Value := do
  let text := document.toList
  let (value, rest) ← readValue (2 * text.length + 2) depth text
  guard (skipBlank rest).isEmpty
  return value

end ChunkedChain.Json
