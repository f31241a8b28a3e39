import ChunkedChain.Toml.Scalar
import ChunkedChain.Toml.Table

/-!
# Reading TOML

A document is read line by line: blank lines, headers, and keys with their values. Lists and inline
tables may run over several lines, also between a key and its value, and end with a comma; no more than
eighty of them stand in each other.

A document may write a number of any size. Whether it is in range is asked when a value is taken from the
document, of that value and of all that is in it: a value that is never looked at may hold any number.
-/

namespace ChunkedChain.Toml

mutual

/-- Reads a value; `depth` more lists and inline tables may open in it. -/
def readValue : (fuel : Nat) → (depth : Nat) → List Char → Option (Value × List Char)
  | 0, _, _ => none
  | fuel + 1, depth, text =>
    match text with
    | '\x22' :: _ => (readQuoted '\x22' true fuel text).map fun (s, rest) => (.text s, rest)
    | '\x27' :: _ => (readQuoted '\x27' false fuel text).map fun (s, rest) => (.text s, rest)
    | '[' :: rest =>
      match depth with
      | 0 => none
      | depth + 1 => readItems fuel depth [] rest
    | '\x7b' :: rest =>
      match depth with
      | 0 => none
      | depth + 1 => readInline fuel depth [] rest
    | _ => readScalar text

/-- Reads the items of a list up to its end; `read` holds those before, last first. -/
def readItems : (fuel : Nat) → (depth : Nat) → (read : List Value) → List Char →
    Option (Value × List Char)
  | 0, _, _, _ => none
  | fuel + 1, depth, read, text =>
    match skipTrivia fuel text with
    | ']' :: rest => some (.list read.reverse, rest)
    | text => do
      let (item, rest) ← readValue fuel depth text
      match skipTrivia fuel rest with
      | ',' :: rest => readItems fuel depth (item :: read) rest
      | ']' :: rest => return (.list (item :: read).reverse, rest)
      | _ => none

/-- Reads the entries of an inline table up to its end; `read` holds those before. -/
def readInline : (fuel : Nat) → (depth : Nat) → (read : Entries Item) → List Char →
    Option (Value × List Char)
  | 0, _, _, _ => none
  | fuel + 1, depth, read, text =>
    match skipTrivia fuel text with
    | '\x7d' :: rest => some ((Item.table .defined read).toValue, rest)
    | text => do
      let (key, rest) ← readKey fuel text
      let rest ← ['='].isPrefixOf? (skipTrivia fuel rest)
      let (value, rest) ← readValue fuel depth (skipTrivia fuel rest)
      let read ← Table.add key value read
      match skipTrivia fuel rest with
      | ',' :: rest => readInline fuel depth read rest
      | '\x7d' :: rest => return ((Item.table .defined read).toValue, rest)
      | _ => none

end

/-- How many lists and inline tables may stand in each other. -/
def maxDepth : Nat := 80

/-- What has been read of a document: its tables, and the table to which keys are added. -/
structure Reading where
  root : Entries Item := []
  current : List String := []

def readHeader (fuel : Nat) (reading : Reading) (text : List Char) : Option (Reading × List Char) := do
  let (array, text) ← match text with
    | '[' :: '[' :: rest => some (true, rest)
    | '[' :: rest => some (false, rest)
    | _ => none
  let (path, rest) ← readKey fuel text
  let rest ← (if array then [']', ']'] else [']']).isPrefixOf? rest
  let name ← path.getLast?
  let root ← Table.within (if array then Table.append name else Table.define name) path.dropLast
    reading.root
  return (⟨root, path⟩, rest)

def readEntry (fuel : Nat) (reading : Reading) (text : List Char) : Option (Reading × List Char) := do
  let (key, rest) ← readKey fuel text
  let (value, rest) ← readValue fuel maxDepth (skipBlank (← ['='].isPrefixOf? rest))
  let root ← Table.within (Table.add key value) reading.current reading.root
  return (⟨root, reading.current⟩, rest)

def readLines : (fuel : Nat) → Reading → List Char → Option Reading
  | 0, _, _ => none
  | fuel + 1, reading, text => do
    let text := skipBlank text
    let (reading, rest) ← match text with
      | [] => some (reading, text)
      | '\n' :: _ => some (reading, text)
      | '\r' :: _ => some (reading, text)
      | '#' :: _ => some (reading, text)
      | '[' :: _ => readHeader fuel reading text
      | _ => readEntry fuel reading text
    match skipComment (skipBlank rest) with
    | [] => return reading
    | rest => readLines fuel reading (← newline? rest)

/-- The value of a document: an object whose keys come in order, at every level, and whose numbers may be
out of range. A mark of the byte order before the first line is dropped. -/
def parse? (document : String) : Option Value := do
  let text := match document.toList with
    | '\uFEFF' :: rest => rest
    | text => text
  let reading ← readLines (2 * text.length + 2) {} text
  return (Item.table .defined reading.root).toValue

theorem parse?_of_no_mark {document : String} (no_mark : document.toList.head? ≠ some '\uFEFF') :
    parse? document = ((readLines (2 * document.toList.length + 2) {} document.toList).map
      fun reading => fieldsOf reading.root).map fun fields => .object (sortFields fields) := by
  have whole : (match document.toList with
      | '\uFEFF' :: rest => rest
      | text => text) = document.toList := by
    split
    · rename_i starts
      rw [starts] at no_mark
      exact absurd rfl no_mark
    · rfl
  rw [parse?, whole, Option.map_map]
  cases readLines (2 * document.toList.length + 2) {} document.toList <;> rfl

/-- Whether an integer can be held in a word of so many bits, signed or not. -/
def fits (bits : Nat) : Int → Bool
  | .ofNat n => n < Nat.pow 2 bits
  | .negSucc n => n < Nat.pow 2 (bits - 1)

mutual

/-- Whether the numbers in a value are in range: integers fit the bits, and doubles are finite. -/
def inRange (bits : Nat) : Value → Bool
  | .null => true
  | .bool _ => true
  | .int n => fits bits n
  | .float x => x.isFinite
  | .text _ => true
  | .list items => itemsInRange bits items
  | .object fields => fieldsInRange bits fields

def itemsInRange (bits : Nat) : List Value → Bool
  | [] => true
  | item :: rest => inRange bits item && itemsInRange bits rest

def fieldsInRange (bits : Nat) : List (String × Value) → Bool
  | [] => true
  | field :: rest => fieldInRange bits field && fieldsInRange bits rest

def fieldInRange (bits : Nat) : String × Value → Bool
  | (_, value) => inRange bits value

end

/-- The bits of an integer that is kept. -/
def keptBits : Nat := 64

/-- The bits of an integer that is read and passed over. -/
def ignoredBits : Nat := 128

end ChunkedChain.Toml
