import ChunkedChain.Decimal.Numeral
import ChunkedChain.Value

/-!
# JSON numbers

An integer that fits 64 bits is kept as it is. Any other number becomes a double: its first digits, as
many as fit an unsigned 64-bit word, make a significand; the digits after them only count as places; and
the significand is multiplied or divided by one power of ten. A number that grows beyond the doubles this
way is refused.
-/

namespace ChunkedChain.Json

def maxSignificand : Nat := UInt64.size - 1

/-- Appends digits to a significand as long as it fits, and returns the digits that are left. -/
def absorb (significand : Nat) : List Char → Nat × List Char
  | [] => (significand, [])
  | c :: rest =>
    let longer := significand * 10 + (c.toNat - '0'.toNat)
    if longer ≤ maxSignificand then absorb longer rest else (significand, c :: rest)

/-- A power of ten as a double. -/
def powerOfTen (exponent : Nat) : Float := Float.ofScientific 1 false exponent

/-- `x · 10 ^ exponent` by one multiplication or division, after as many divisions by `10 ^ 308` as a very
small exponent takes; no more than `steps` of these, after which any significand is zero. -/
def scale : (steps : Nat) → (x : Float) → (exponent : Int) → Option Float
  | steps, x, exponent =>
    if exponent.natAbs ≤ 308 then
      if 0 ≤ exponent then
        let product := x * powerOfTen exponent.natAbs
        if product.isInf then none else some product
      else some (x / powerOfTen exponent.natAbs)
    else if x == 0.0 then some x
    else if 0 ≤ exponent then none
    else match steps with
      | 0 => some 0.0
      | steps + 1 => scale steps (x / powerOfTen 308) (exponent + 308)

def double? (negative : Bool) (significand : Nat) (exponent : Int) : Option Value :=
  (scale 8 (UInt64.ofNat significand).toFloat exponent).map fun x => .float (if negative then -x else x)

def integer (negative : Bool) (significand : Nat) : Value :=
  if !negative then .int significand
  else if significand = 0 || Nat.pow 2 63 < significand then .float (-(UInt64.ofNat significand).toFloat)
  else .int (-(significand : Int))

/-- Reads an exponent after its `e` and finishes the number. -/
def readExponent (negative : Bool) (significand : Nat) (exponent : Int) (text : List Char) :
    Option (Value × List Char) := do
  let (down, text) := match text with
    | '-' :: rest => (true, rest)
    | '+' :: rest => (false, rest)
    | _ => (false, text)
  let (digits, rest) ← Numeral.leading? text
  let shift : Nat := Numeral.value digits
  if Nat.pow 2 31 ≤ shift then
    guard (significand = 0 || down)
    return (.float (if negative then -0.0 else 0.0), rest)
  let value ← double? negative significand (if down then exponent - shift else exponent + shift)
  return (value, rest)

/-- Finishes a number with a fraction or digits that did not fit: an exponent may follow. -/
def finishDouble (negative : Bool) (significand : Nat) (exponent : Int) :
    List Char → Option (Value × List Char)
  | 'e' :: rest => readExponent negative significand exponent rest
  | 'E' :: rest => readExponent negative significand exponent rest
  | rest => (double? negative significand exponent).map (·, rest)

def readMagnitude (negative : Bool) (text : List Char) : Option (Value × List Char) := do
  let (whole, rest) ← Numeral.leading? text
  guard (whole.length = 1 || whole.head? != some '0')
  let (significand, left) := absorb 0 whole
  match rest with
  | '.' :: tail =>
    let (fraction, rest) ← Numeral.leading? tail
    let (longer, dropped) := absorb significand fraction
    let places : Int := fraction.length - dropped.length
    finishDouble negative longer (left.length - places) rest
  | 'e' :: _ => finishDouble negative significand left.length rest
  | 'E' :: _ => finishDouble negative significand left.length rest
  | _ =>
    if left.isEmpty then return (integer negative significand, rest)
    else finishDouble negative significand left.length rest

def readNumber : List Char → Option (Value × List Char)
  | '-' :: rest => readMagnitude true rest
  | text => readMagnitude false text

end ChunkedChain.Json
