/-!
# Shortest decimals, and how they are written

The decimal text of a double has the fewest digits that read back as the same double and, among those,
stands nearest to it. A finite double is `mantissa · 2 ^ exponent`, and the numbers that read back as it
form an interval around it, whose ends belong to it when the mantissa is even. For 1, 2, ... 17 digits the
two neighbours of the double on that decimal grid are tried in exact arithmetic; the first grid with a
neighbour in the interval wins.

In documents a number is written with a point while the point falls between the fifth place left of the
first digit and the sixteenth right of it, else with an exponent. A number without a fraction gets `.0`
when it is written with a point.
-/

namespace ChunkedChain.Decimal

/-- A positive double, with the interval of numbers that read back as it. All of it is counted in
fractions `1 / denominator`. -/
structure Span where
  low : Nat
  value : Nat
  high : Nat
  denominator : Nat
  /-- Whether the ends of the interval read back as the double too. -/
  closed : Bool

namespace Span

/-- The interval of the double `mantissa · 2 ^ exponent`. The neighbour below is at half the usual
distance when `nearBelow` holds, which is so just above a power of two. -/
def ofBinary (mantissa : Nat) (exponent : Int) (nearBelow : Bool) : Span :=
  let up := Nat.pow 2 (exponent - 2).toNat
  { low := (4 * mantissa - if nearBelow then 1 else 2) * up
    value := 4 * mantissa * up
    high := (4 * mantissa + 2) * up
    denominator := Nat.pow 2 (2 - exponent).toNat
    closed := mantissa % 2 == 0 }

def contains (span : Span) (digits : Nat) (power : Int) : Bool :=
  let point := digits * Nat.pow 10 power.toNat * span.denominator
  let down := Nat.pow 10 (-power).toNat
  if span.closed then span.low * down ≤ point && point ≤ span.high * down
  else span.low * down < point && point < span.high * down

/-- The value in units of `10 ^ power`, rounded down, and twice what is left, compared with a unit. -/
def quotient (span : Span) (power : Int) : Nat × Ordering :=
  let dividend := span.value * Nat.pow 10 (-power).toNat
  let divisor := span.denominator * Nat.pow 10 power.toNat
  (dividend / divisor, compare (2 * (dividend % divisor)) divisor)

/-- The number in the interval that has `digits` digits and stands nearest to the value, if there is
one; `top` is the least power of ten above the value. -/
def onGrid? (span : Span) (top : Int) (digits : Nat) : Option (Nat × Int) :=
  let power := top - digits
  let (below, rest) := span.quotient power
  match span.contains below power, span.contains (below + 1) power with
  | true, true =>
    match rest with
    | .lt => some (below, power)
    | .gt => some (below + 1, power)
    | .eq => some (if below % 2 == 0 then below else below + 1, power)
  | true, false => some (below, power)
  | false, true => some (below + 1, power)
  | false, false => none

/-- The least exponent of a power of ten above the value. -/
def top (span : Span) : Int :=
  let whole := span.value / span.denominator
  if whole = 0 then
    let inverse := span.denominator / span.value
    1 - (Nat.toDigits 10 inverse).length
  else (Nat.toDigits 10 whole).length

/-- The first grid with a number in the interval, from `digits` digits on. -/
def search (span : Span) (top : Int) : (more : Nat) → (digits : Nat) → Nat × Int
  | 0, digits => ((span.quotient (top - digits)).1, top - digits)
  | more + 1, digits => (span.onGrid? top digits).getD (search span top more (digits + 1))

/-- The shortest number in the interval, as digits and a power of ten. -/
def shortest (span : Span) : Nat × Int := span.search span.top 17 1

end Span

inductive Shape where
  | nan
  | infinite (negative : Bool)
  | zero (negative : Bool)
  /-- The number `0.digits · 10 ^ point`; the first and the last digit are not zero. -/
  | finite (negative : Bool) (digits : List Char) (point : Int)

def trimZeros (digits : List Char) : List Char := (digits.reverse.dropWhile (· = '0')).reverse

def Shape.of (x : Float) : Shape :=
  let bits : Nat := x.toBits.toNat
  let negative := bits / Nat.pow 2 63 == 1
  let biased : Nat := bits / Nat.pow 2 52 % 2048
  let fraction : Nat := bits % Nat.pow 2 52
  if biased = 2047 then
    if fraction = 0 then .infinite negative else .nan
  else if biased = 0 && fraction = 0 then .zero negative
  else
    let span := if biased = 0 then Span.ofBinary fraction (-1074) false
      else Span.ofBinary (Nat.pow 2 52 + fraction) ((biased : Int) - 1075) (fraction == 0 && biased > 1)
    let (number, power) := span.shortest
    let digits := Nat.toDigits 10 number
    .finite negative (trimZeros digits) (digits.length + power)

/-- Where the notation with an exponent starts. -/
structure Style where
  /-- The greatest number of places before the point. -/
  placesBefore : Int
  /-- The greatest number of zeros between the point and the first digit. -/
  zerosAfter : Int

def documents : Style := ⟨16, 4⟩

/-- The digits of a positive number `0.digits · 10 ^ point`. -/
def Style.positional (style : Style) (digits : List Char) (point : Int) : List Char :=
  let count : Int := digits.length
  if count ≤ point && point ≤ style.placesBefore then
    digits ++ List.replicate (point - count).toNat '0' ++ ['.', '0']
  else if 0 < point && point ≤ style.placesBefore then
    digits.take point.toNat ++ '.' :: digits.drop point.toNat
  else if -style.zerosAfter ≤ point && point ≤ 0 then
    '0' :: '.' :: List.replicate (-point).toNat '0' ++ digits
  else
    let fraction := match digits.drop 1 with
      | [] => []
      | rest => '.' :: rest
    let exponent := point - 1
    let sign := if exponent < 0 then ['-'] else []
    digits.take 1 ++ fraction ++ 'e' :: sign ++ Nat.toDigits 10 exponent.natAbs

def Style.write (style : Style) (x : Float) : String :=
  let signed (negative : Bool) (text : List Char) := String.ofList (if negative then '-' :: text else text)
  match Shape.of x with
  | .nan => ".nan"
  | .infinite negative => signed negative ".inf".toList
  | .zero negative => signed negative "0.0".toList
  | .finite negative digits point => signed negative (style.positional digits point)

end ChunkedChain.Decimal
