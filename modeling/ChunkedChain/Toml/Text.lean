import ChunkedChain.Decimal.Numeral

/-!
# Blanks, texts and keys in TOML

The pieces of a TOML document that are read character by character. A reader takes the characters ahead
and returns what it read with the characters after it, or nothing if the piece is not well formed.
-/

namespace ChunkedChain.Toml

/-- Space and tab. -/
def isBlank (c : Char) : Bool := c == ' ' || c == '\t'

def skipBlank (text : List Char) : List Char := text.dropWhile isBlank

/-- Whether a character may stand in a comment or between quotes: a tab, or no control character. -/
def isAllowed (c : Char) : Bool := c == '\t' || (0x20 ≤ c.toNat && c.toNat != 0x7F)

/-- Reads the end of a line: a line feed, with or without a carriage return before it. -/
def newline? : List Char → Option (List Char)
  | '\n' :: rest => some rest
  | '\r' :: '\n' :: rest => some rest
  | _ => none

/-- Drops a comment, up to the end of its line. -/
def skipComment : List Char → List Char
  | '#' :: rest => rest.dropWhile isAllowed
  | text => text

/-- Drops blanks, comments and ends of lines; `fuel` bounds the number of lines. -/
def skipTrivia : (fuel : Nat) → List Char → List Char
  | 0, text => text
  | fuel + 1, text =>
    let text := skipComment (skipBlank text)
    match newline? text with
    | some rest => skipTrivia fuel rest
    | none => text

def skipSpace : List Char → List Char
  | '\r' :: '\n' :: rest => skipSpace rest
  | c :: rest => if isBlank c || c == '\n' then skipSpace rest else c :: rest
  | [] => []

/-! ## Texts -/

/-- Reads a character written as a fixed number of hexadecimal digits. -/
def readCode (width : Nat) (text : List Char) : Option (Char × List Char) := do
  guard (width ≤ text.length)
  let code ← Numeral.valueIn? 16 (text.take width)
  guard (code < 0xD800 || (0xE000 ≤ code && code ≤ 0x10FFFF))
  return (Char.ofNat code, text.drop width)

def readEscape : List Char → Option (Char × List Char)
  | 'b' :: rest => some ('\x08', rest)
  | 't' :: rest => some ('\t', rest)
  | 'n' :: rest => some ('\n', rest)
  | 'f' :: rest => some ('\x0c', rest)
  | 'r' :: rest => some ('\r', rest)
  | 'e' :: rest => some ('\x1b', rest)
  | '\x22' :: rest => some ('\x22', rest)
  | '\\' :: rest => some ('\\', rest)
  | 'x' :: rest => readCode 2 rest
  | 'u' :: rest => readCode 4 rest
  | 'U' :: rest => readCode 8 rest
  | _ => none

/-- Reads a text on one line after its opening quote; `escapes` tells whether backslashes mean
something, and `read` holds the characters so far, last first. -/
def readLineText (quote : Char) (escapes : Bool) :
    (fuel : Nat) → (read : List Char) → List Char → Option (String × List Char)
  | 0, _, _ => none
  | _, _, [] => none
  | fuel + 1, read, c :: rest =>
    if c == quote then some (String.ofList read.reverse, rest)
    else if escapes && c == '\\' then do
      let (escaped, rest) ← readEscape rest
      readLineText quote escapes fuel (escaped :: read) rest
    else if isAllowed c then readLineText quote escapes fuel (c :: read) rest
    else none

/-- Reads a text of several lines after its opening quotes. Three quotes end it, and up to two quotes
before these belong to it. A backslash at the end of a line drops the space after it. -/
def readBlockText (quote : Char) (escapes : Bool) :
    (fuel : Nat) → (read : List Char) → List Char → Option (String × List Char)
  | 0, _, _ => none
  | _, _, [] => none
  | fuel + 1, read, c :: rest =>
    if c == quote then
      let quotes := ((c :: rest).takeWhile (· == quote)).length
      if quotes < 3 then readBlockText quote escapes fuel (c :: read) rest
      else
        let closing := min quotes 5
        some (String.ofList (List.replicate (closing - 3) quote ++ read).reverse,
          (c :: rest).drop closing)
    else if escapes && c == '\\' then
      match newline? (skipBlank rest) with
      | some next => readBlockText quote escapes fuel read (skipSpace next)
      | none => do
        let (escaped, rest) ← readEscape rest
        readBlockText quote escapes fuel (escaped :: read) rest
    else if c == '\n' then readBlockText quote escapes fuel (c :: read) rest
    else if c == '\r' then
      match rest with
      | '\n' :: rest => readBlockText quote escapes fuel ('\n' :: '\r' :: read) rest
      | _ => none
    else if isAllowed c then readBlockText quote escapes fuel (c :: read) rest
    else none

/-- Reads a text that starts with `quote`. A line end right after three quotes does not belong to it. -/
def readQuoted (quote : Char) (escapes : Bool) (fuel : Nat) (text : List Char) :
    Option (String × List Char) :=
  match [quote, quote, quote].isPrefixOf? text with
  | some rest => readBlockText quote escapes fuel [] ((newline? rest).getD rest)
  | none => readLineText quote escapes fuel [] (text.drop 1)

/-! ## Keys -/

def isBareKey (c : Char) : Bool := c.isAlphanum || c == '_' || c == '-'

def readSimpleKey (fuel : Nat) : List Char → Option (String × List Char)
  | '\x22' :: rest => readLineText '\x22' true fuel [] rest
  | '\x27' :: rest => readLineText '\x27' false fuel [] rest
  | text =>
    let name := text.takeWhile isBareKey
    if name.isEmpty then none else some (String.ofList name, text.dropWhile isBareKey)

def maxKeyParts : Nat := 80

/-- Reads the parts of a key, which are separated by dots, and drops the blanks around them; `parts` more
may follow. -/
def readKeyParts (fuel : Nat) : (parts : Nat) → List Char → Option (List String × List Char)
  | 0, _ => none
  | parts + 1, text => do
    let (name, rest) ← readSimpleKey fuel (skipBlank text)
    match skipBlank rest with
    | '.' :: rest =>
      let (names, rest) ← readKeyParts fuel parts rest
      return (name :: names, rest)
    | rest => return ([name], rest)

def readKey (fuel : Nat) (text : List Char) : Option (List String × List Char) :=
  readKeyParts fuel maxKeyParts text

end ChunkedChain.Toml
