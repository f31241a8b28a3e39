/-!
# Numerals

Writing a natural number in decimal digits and reading a run of digits back. Leading zeros are read and
never written. Digits of other bases are only read, and so is a decimal fraction, as the double nearest to
it.
-/

namespace ChunkedChain

/-- The decimal digits of `n`, without leading zeros. -/
def decimal (n : Nat) : String := String.ofList (Nat.toDigits 10 n)

namespace Numeral

/-- Whether a text is a numeral: at least one character, all of them the digits 0 to 9. -/
def isNumeral (text : List Char) : Bool := !text.isEmpty && text.all Char.isDigit

def value (digits : List Char) : Nat := Nat.ofDigitChars 10 digits 0

def word64? (digits : List Char) : Option UInt64 :=
  if value digits < UInt64.size then some (UInt64.ofNat (value digits)) else none

def word32? (digits : List Char) : Option UInt32 :=
  if value digits < UInt32.size then some (UInt32.ofNat (value digits)) else none

/-- Splits off the digits a text starts with, if it starts with any. -/
def leading? (text : List Char) : Option (List Char × List Char) :=
  let digits := text.takeWhile Char.isDigit
  if digits.isEmpty then none else some (digits, text.dropWhile Char.isDigit)

/-- The value of a character as a digit of a base of at most 16. -/
def digitIn? (base : Nat) (c : Char) : Option Nat :=
  let digit := if '0' ≤ c ∧ c ≤ '9' then some (c.toNat - '0'.toNat)
    else if 'a' ≤ c ∧ c ≤ 'f' then some (c.toNat - 'a'.toNat + 10)
    else if 'A' ≤ c ∧ c ≤ 'F' then some (c.toNat - 'A'.toNat + 10)
    else none
  digit.filter (· < base)

/-- The number that a text of at least one digit of a base stands for. -/
def valueIn? (base : Nat) (text : List Char) : Option Nat :=
  if text.isEmpty then none
  else (text.mapM (digitIn? base)).map fun digits => digits.foldl (fun acc d => acc * base + d) 0

theorem value_toDigits (n : Nat) : value (Nat.toDigits 10 n) = n :=
  Nat.ofDigitChars_toDigits (by decide) (by decide)

end Numeral

namespace Decimal

/-- The double nearest to `number · 10 ^ power`; infinite if the number is too large. A number whose point
lies far beyond the range of doubles is settled by its magnitude alone, so no power of ten is larger than
that range needs. -/
def nearest (number : Nat) (power : Int) : Float :=
  if number = 0 then 0.0
  else
    let top := (Nat.toDigits 10 number).length + power
    if top > 400 then 1.0 / 0.0
    else if top < -400 then 0.0
    else Float.ofScientific number (power < 0) power.natAbs

end Decimal

end ChunkedChain
