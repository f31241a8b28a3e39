import ChunkedChain.Decimal.Numeral

/-!
# Text scalars in YAML

Which of the ways to write a text is taken. A text with a line feed asks for the literal form; a text
that a reader would not take for a text (a null, a truth value, a number) asks for single quotes; any
other asks for no quotes at all. A form that could not be read back as the same text gives way to the
next more careful one, and double quotes take everything.
-/

namespace ChunkedChain.Yaml

/-! ## Characters -/

def isBreak (c : Char) : Bool :=
  c == '\n' || c == '\r' || c == '\x85' || c == '\u2028' || c == '\u2029'

def isBlank (c : Char) : Bool := c == ' ' || c == '\t' || c == '\x00' || isBreak c

def isBlankOrEnd (next : Option Char) : Bool := next.all isBlank

/-- Characters that may stand in a document as they are. -/
def isPrintable (c : Char) : Bool :=
  let n := c.toNat
  n == 0x0A || (0x20 ≤ n && n ≤ 0x7E) || (0xA0 ≤ n && n ≤ 0xD7FF)
    || (0xE000 ≤ n && n ≤ 0xFFFD && n != 0xFEFF) || 0x10000 ≤ n

/-! ## Texts that read as something else -/

/-- Whether a text without sign is an integer below `bound`, in any of the four bases. -/
def isMagnitude (bound : Nat) (text : List Char) : Bool :=
  let number := match text with
    | '0' :: 'x' :: rest => Numeral.valueIn? 16 rest
    | '0' :: 'o' :: rest => Numeral.valueIn? 8 rest
    | '0' :: 'b' :: rest => Numeral.valueIn? 2 rest
    | _ => Numeral.valueIn? 10 text
  number.any (· < bound)

/-- Whether a text reads as an integer of 128 bits. -/
def isInteger (text : List Char) : Bool :=
  match text with
  | '-' :: rest => isMagnitude (Nat.pow 2 127 + 1) rest
  | '+' :: rest => isMagnitude (Nat.pow 2 128) rest
  | _ => isMagnitude (Nat.pow 2 128) text

def isZeroPadded (text : List Char) : Bool :=
  let digits := match text with
    | '-' :: rest => rest
    | '+' :: rest => rest
    | _ => text
  match digits with
  | '0' :: c :: rest => (c :: rest).all Char.isDigit
  | _ => false

/-- The exponent at the end of a decimal: nothing, or `e`, a sign or none, and digits. -/
def exponent? : List Char → Option Int
  | [] => some 0
  | e :: rest =>
    if e == 'e' || e == 'E' then
      match rest with
      | '-' :: digits => if Numeral.isNumeral digits then some (-(Numeral.value digits : Int)) else none
      | '+' :: digits => if Numeral.isNumeral digits then some (Numeral.value digits) else none
      | digits => if Numeral.isNumeral digits then some (Numeral.value digits) else none
    else none

/-- Whether a text without sign is a decimal that a finite double can stand for. -/
def isFiniteDecimal (text : List Char) : Bool :=
  let whole := text.takeWhile Char.isDigit
  let afterWhole := text.dropWhile Char.isDigit
  let (fraction, rest) := match afterWhole with
    | '.' :: tail => (tail.takeWhile Char.isDigit, tail.dropWhile Char.isDigit)
    | _ => ([], afterWhole)
  if whole.isEmpty && fraction.isEmpty then false
  else match exponent? rest with
    | some exponent =>
      (Decimal.nearest (Numeral.value (whole ++ fraction)) (exponent - fraction.length)).isFinite
    | none => false

def infinities : List String := [".inf", ".Inf", ".INF"]

def notNumbers : List String := [".nan", ".NaN", ".NAN"]

def isFloat (text : List Char) : Bool :=
  let unsigned := match text with
    | '-' :: rest => rest
    | '+' :: rest => rest
    | _ => text
  infinities.contains (String.ofList unsigned) || notNumbers.contains (String.ofList text)
    || isFiniteDecimal unsigned

/-- The words that read as null or as a truth value. -/
def words : List String :=
  ["", "~", "null", "Null", "NULL", "true", "True", "TRUE", "false", "False", "FALSE"]

def readsAsOther (text : List Char) : Bool :=
  words.contains (String.ofList text) || isZeroPadded text || isInteger text || isFloat text

/-! ## Which forms keep the text -/

/-- Whether one of the characters that mean something inside a plain text occurs after `previous`. -/
def hasInnerIndicator : (previous : Char) → List Char → Bool
  | _, [] => false
  | previous, c :: rest =>
    (c == ':' && isBlankOrEnd rest.head?) || (c == '#' && isBlank previous) || hasInnerIndicator c rest

/-- Whether the first character of a text means something, given the character after it. -/
def isOpeningIndicator (c : Char) (next : Option Char) : Bool :=
  "#,[]\x7b\x7d&*!|>\x27\x22%@\x60".toList.contains c
    || ((c == '?' || c == ':' || c == '-') && isBlankOrEnd next)

/-- Whether a plain text would be taken for structure. -/
def hasIndicator (text : List Char) : Bool :=
  "---".toList.isPrefixOf text || "...".toList.isPrefixOf text ||
    match text with
    | [] => false
    | c :: rest => isOpeningIndicator c rest.head? || hasInnerIndicator c rest

def hasPair (first second : Char → Bool) : List Char → Bool
  | c :: d :: rest => (first c && second d) || hasPair first second (d :: rest)
  | _ => false

/-- Whether a text can only be written with escapes: some character is not printable, or a line ends
with a space. -/
def isSpecial (text : List Char) : Bool :=
  !text.all isPrintable || hasPair (· == ' ') isBreak text

def isSpaceOrBreak (c : Char) : Bool := c == ' ' || isBreak c

def allowsPlain (text : List Char) : Bool :=
  !isSpecial text && !hasIndicator text && !text.any isBreak
    && !text.head?.any isSpaceOrBreak && !text.getLast?.any isSpaceOrBreak

def allowsSingle (text : List Char) : Bool :=
  !isSpecial text && !hasPair isBreak (· == ' ') text

def allowsLiteral (text : List Char) : Bool :=
  !isSpecial text && !text.isEmpty && !text.getLast?.any (· == ' ')

inductive Form where
  | plain | single | double | literal
  deriving DecidableEq, Repr

def Form.wanted (text : List Char) : Form :=
  if text.contains '\n' then .literal else if readsAsOther text then .single else .plain

/-- The form in which a text is written, as the key of an entry or as a value. -/
def Form.of (asKey : Bool) (text : List Char) : Form :=
  if asKey && text.any isBreak then .double else
    match Form.wanted text with
    | .literal => if asKey || !allowsLiteral text then .double else .literal
    | .plain => if allowsPlain text then .plain else if allowsSingle text then .single else .double
    | .single => if allowsSingle text then .single else .double
    | .double => .double

end ChunkedChain.Yaml
