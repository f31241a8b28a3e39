import ChunkedChain.Toml.Text
import ChunkedChain.Value

/-!
# Scalars in TOML

Truth values, numbers, dates and times. An integer may have any size, and a double that is too large is
read as infinite; who uses them asks that they are in range. The words for infinity and for what is not a
number become null, for values have no such doubles. Dates and times become an object with a single entry
that holds their tidied text.
-/

namespace ChunkedChain.Toml

/-! ## Numbers -/

def digits? (isDigit : Char → Bool) (text : List Char) : Option (List Char) :=
  let rec paired : List Char → Bool
    | '_' :: '_' :: _ => true
    | _ :: rest => paired rest
    | [] => false
  if text.head?.any isDigit && text.getLast?.any isDigit
      && text.all (fun c => isDigit c || c == '_') && !paired text then
    some (text.filter (· != '_'))
  else none

/-- The digits of a decimal number without superfluous zeros at its start. -/
def decimalDigits? (text : List Char) : Option (List Char) :=
  (digits? Char.isDigit text).filter fun digits => digits.length = 1 || digits.head? != some '0'

/-- The number that digits of a base stand for, with underscores between them. -/
def inBase? (base : Nat) (text : List Char) : Option Int := do
  let number ← Numeral.valueIn? base (← digits? (fun c => (Numeral.digitIn? base c).isSome) text)
  return (number : Int)

/-- The integer that a text stands for, of whatever size. -/
def integer? : List Char → Option Int
  | '0' :: 'x' :: rest => inBase? 16 rest
  | '0' :: 'o' :: rest => inBase? 8 rest
  | '0' :: 'b' :: rest => inBase? 2 rest
  | '-' :: rest => (decimalDigits? rest).map fun ds => -(Numeral.value ds : Int)
  | '+' :: rest => (decimalDigits? rest).map fun ds => (Numeral.value ds : Int)
  | text => (decimalDigits? text).map fun ds => (Numeral.value ds : Int)

def exponent? : List Char → Option Int
  | '-' :: rest => (digits? Char.isDigit rest).map fun ds => -(Numeral.value ds : Int)
  | '+' :: rest => (digits? Char.isDigit rest).map fun ds => (Numeral.value ds : Int)
  | text => (digits? Char.isDigit text).map fun ds => (Numeral.value ds : Int)

def isNumberPart (c : Char) : Bool := c.isDigit || c == '_'

/-- The double that a text without sign stands for: with a fraction, an exponent or both. -/
def magnitude? (text : List Char) : Option Float := do
  let whole ← decimalDigits? (text.takeWhile isNumberPart)
  match text.dropWhile isNumberPart with
  | '.' :: tail =>
    let fraction ← digits? Char.isDigit (tail.takeWhile isNumberPart)
    let exponent ← match tail.dropWhile isNumberPart with
      | [] => some 0
      | e :: rest => if e == 'e' || e == 'E' then exponent? rest else none
    return Decimal.nearest (Numeral.value (whole ++ fraction)) (exponent - fraction.length)
  | e :: rest =>
    guard (e == 'e' || e == 'E')
    return Decimal.nearest (Numeral.value whole) (← exponent? rest)
  | [] => none

def float? : List Char → Option Float
  | '-' :: rest => (magnitude? rest).map (-·)
  | '+' :: rest => magnitude? rest
  | text => magnitude? text

/-! ## Dates and times -/

def daysIn (year month : Nat) : Nat :=
  let leap := year % 4 == 0 && (year % 100 != 0 || year % 400 == 0)
  if month == 2 then (if leap then 29 else 28)
  else if month == 4 || month == 6 || month == 9 || month == 11 then 30
  else 31

/-- Reads a number of a fixed count of digits, at most `limit`. -/
def readField (width limit : Nat) (text : List Char) : Option (List Char × List Char) := do
  let digits := text.take width
  guard (digits.length = width && digits.all Char.isDigit && Numeral.value digits ≤ limit)
  return (digits, text.drop width)

def readDate (text : List Char) : Option (List Char × List Char) := do
  let (year, rest) ← readField 4 9999 text
  let (month, rest) ← readField 2 12 (← ['-'].isPrefixOf? rest)
  let (day, rest) ← readField 2 31 (← ['-'].isPrefixOf? rest)
  let m := Numeral.value month
  let d := Numeral.value day
  guard (1 ≤ m && 1 ≤ d && d ≤ daysIn (Numeral.value year) m)
  return (year ++ '-' :: month ++ '-' :: day, rest)

/-- The fraction of a second as it is written: at most nine digits, without zeros at the end. -/
def tidyFraction (digits : List Char) : List Char :=
  match ((digits.take 9).reverse.dropWhile (· == '0')).reverse with
  | [] => ['0']
  | kept => kept

/-- Reads a time of day. The seconds may be left out, and so may their fraction. -/
def readTime (text : List Char) : Option (List Char × List Char) := do
  let (hour, rest) ← readField 2 23 text
  let (minute, rest) ← readField 2 59 (← [':'].isPrefixOf? rest)
  let time := hour ++ ':' :: minute
  match rest with
  | ':' :: rest =>
    let (second, rest) ← readField 2 60 rest
    match rest with
    | '.' :: rest =>
      let (fraction, rest) ← Numeral.leading? rest
      return (time ++ ':' :: second ++ '.' :: tidyFraction fraction, rest)
    | rest => return (time ++ ':' :: second, rest)
  | rest => return (time, rest)

def readOffset : List Char → Option (List Char × List Char)
  | [] => some ([], [])
  | 'Z' :: rest => some (['Z'], rest)
  | 'z' :: rest => some (['Z'], rest)
  | sign :: rest => do
    guard (sign == '+' || sign == '-')
    let (hour, rest) ← readField 2 23 rest
    let (minute, rest) ← readField 2 59 (← [':'].isPrefixOf? rest)
    let zero := Numeral.value (hour ++ minute) = 0
    return ((if zero then '+' else sign) :: hour ++ ':' :: minute, rest)

/-- The tidied text of a date, a time, or both; only both together may have an offset. -/
def dateTime? (text : List Char) : Option (List Char) :=
  match readDate text with
  | some (date, []) => some date
  | some (date, separator :: rest) => do
    guard (separator == 'T' || separator == 't' || separator == ' ')
    let (time, rest) ← readTime rest
    let (offset, rest) ← readOffset rest
    guard rest.isEmpty
    return date ++ 'T' :: time ++ offset
  | none => do
    let (time, rest) ← readTime text
    guard rest.isEmpty
    return time

def dateTimeKey : String := "$__toml_private_datetime"

/-! ## Any scalar -/

def notFinite : List String := ["inf", "+inf", "-inf", "nan", "+nan", "-nan"]

/-- The value that a text without quotes stands for. -/
def scalar? (text : List Char) : Option Value :=
  let word := String.ofList text
  if word == "true" then some (.bool true)
  else if word == "false" then some (.bool false)
  else if notFinite.contains word then some .null
  else match dateTime? text with
    | some tidied => some (.entry dateTimeKey (.text (String.ofList tidied)))
    | none =>
      match integer? text with
      | some n => some (.int n)
      | none => (float? text).map .float

def isScalarPart (c : Char) : Bool :=
  c.isAlphanum || c == '+' || c == '-' || c == '_' || c == '.' || c == ':'

/-- Reads a scalar without quotes. A date may be followed by a space and a time. -/
def readScalar (text : List Char) : Option (Value × List Char) :=
  let first := text.takeWhile isScalarPart
  let rest := text.dropWhile isScalarPart
  let (whole, rest) := match readDate first, rest with
    | some (_, []), ' ' :: c :: tail =>
      if c.isDigit then
        (first ++ ' ' :: (c :: tail).takeWhile isScalarPart, (c :: tail).dropWhile isScalarPart)
      else (first, rest)
    | _, _ => (first, rest)
  (scalar? whole).map (·, rest)

end ChunkedChain.Toml
