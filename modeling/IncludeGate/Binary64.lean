import IncludeGate.Text.Numeral

/-!
# Binary floating-point numbers and their shortest decimals

A number of the 64-bit binary format is a natural number below `2 ^ 53` times a
power of two.  Reading a decimal rounds it to the nearest such number, and to the
one with the even mantissa if two are equally near; `ofDecimalStepwise` is the
reading of formats that round more than once on the way.  Writing one selects the
fewest decimal digits that read back as the same number and, of these, the
nearest to it; which of two equally near decimals is taken is up to the format
that is written.  All arithmetic is exact.
-/

namespace IncludeGate

open Text

/-- A number of the 64-bit binary format. -/
inductive Binary64 where
  | notANumber
  | infinite (negative : Bool)
  /-- The mantissa times two to the exponent. -/
  | finite (negative : Bool) (mantissa : Nat) (exponent : Int)
  deriving DecidableEq, Repr

/-- Which of two equally near decimals is taken. -/
inductive TieRule where
  | toEven
  | toGreater
  deriving DecidableEq, Repr

/-- Decimal digits, the most significant first, and the power of ten that the
last one counts. -/
structure Decimal where
  digits : List Char
  exponent : Int
  deriving DecidableEq, Repr

namespace Binary64

/-- The least exponent. -/
def minExponent : Int := -1074

/-- The greatest exponent. -/
def maxExponent : Int := 971

/-- A power as a numerator and a denominator. -/
def powerRatio (base : Nat) (exponent : Int) : Nat × Nat :=
  if exponent < 0 then (1, Nat.pow base exponent.natAbs) else (Nat.pow base exponent.natAbs, 1)

/-- The nearest whole number to a quotient, the even one of two. -/
def roundQuotient (numerator denominator : Nat) : Nat :=
  let quotient := numerator / denominator
  let rest := numerator % denominator
  if denominator < 2 * rest ∨ (denominator = 2 * rest ∧ quotient % 2 = 1) then
    quotient + 1
  else
    quotient

/-- The nearest number to a positive quotient. -/
def ofQuotient (negative : Bool) (numerator denominator : Nat) : Binary64 :=
  let guess : Int := (Nat.log2 numerator : Int) - (Nat.log2 denominator : Int) - 53
  let scaled (exponent : Int) : Nat :=
    let (up, down) := powerRatio 2 exponent
    roundQuotient (numerator * down) (denominator * up)
  let exponent := [guess, guess + 1, guess + 2].find? fun exponent =>
    decide (minExponent ≤ exponent) && decide (scaled exponent < Nat.pow 2 53)
  let exponent := exponent.getD (max minExponent (guess + 2))
  if maxExponent < exponent then infinite negative
  else finite negative (scaled exponent) exponent

/-- The nearest number to whole digits times a power of ten.  Powers far out of
range are not computed. -/
def ofDecimal (negative : Bool) (digits : Nat) (exponent : Int) : Binary64 :=
  let magnitude : Int := (Nat.log2 digits : Int) * 30103 / 100000 + exponent
  if digits = 0 ∨ magnitude < -400 then finite negative 0 minExponent
  else if 400 < magnitude then infinite negative
  else
    let (up, down) := powerRatio 10 exponent
    ofQuotient negative (digits * up) down

/-- A number times or divided by the number nearest to a power of ten. -/
def timesPowerOfTen (power : Int) : Binary64 → Binary64
  | finite negative mantissa exponent =>
      match ofQuotient false (Nat.pow 10 power.natAbs) 1 with
      | finite _ factor scale =>
          let (up, down) := powerRatio 2 (if power < 0 then exponent - scale else exponent + scale)
          if mantissa = 0 then finite negative 0 minExponent
          else if power < 0 then ofQuotient negative (mantissa * up) (factor * down)
          else ofQuotient negative (mantissa * factor * up) down
      | _ => if power < 0 then finite negative 0 minExponent else infinite negative
  | other => other

/-- The greatest power of ten that is a number of this format. -/
def maxPowerOfTen : Int := 308

/-- Whole digits times a power of ten, computed step by step: the digits, the power
and the result are rounded each, and a power too small for the format takes two
divisions. -/
def ofDecimalStepwise (negative : Bool) (digits : Nat) (power : Int) : Binary64 :=
  if digits = 0 ∨ power < -2 * maxPowerOfTen then finite negative 0 minExponent
  else if maxPowerOfTen < power then infinite negative
  else
    let whole := ofQuotient negative digits 1
    if -maxPowerOfTen ≤ power then whole.timesPowerOfTen power
    else (whole.timesPowerOfTen (-maxPowerOfTen)).timesPowerOfTen (power + maxPowerOfTen)

/-- Whether the smaller of two neighbouring multiples of a unit is taken for a
value between them. -/
def takesBelow (tie : TieRule) (below unit value : Nat) : Bool :=
  let middle := (2 * below + 1) * unit
  2 * value < middle || (2 * value == middle && tie == .toEven && below % 2 == 0)

/-- The multiple of the given power of ten that is nearest to a number, of those
next to it that read back as the number. -/
def candidate? (tie : TieRule) (mantissa : Nat) (exponent power : Int) : Option Nat :=
  -- Four times the value is compared in units of two to the exponent.
  let (up, down) := powerRatio 2 (exponent - 2)
  let (tenUp, tenDown) := powerRatio 10 power
  let unit := tenUp * down
  let value := 4 * mantissa * up * tenDown
  let quarter := up * tenDown
  let narrow := mantissa = Nat.pow 2 52 ∧ minExponent < exponent
  let low := value - (if narrow then quarter else 2 * quarter)
  let high := value + 2 * quarter
  let closed := mantissa % 2 = 0
  let readsBack (count : Nat) : Bool :=
    if closed then low ≤ count * unit && count * unit ≤ high
    else low < count * unit && count * unit < high
  let below := value / unit
  let above := below + 1
  match readsBack below, readsBack above with
  | true, true => some (if takesBelow tie below unit value then below else above)
  | true, false => some below
  | false, true => some above
  | false, false => none

/-- The shortest decimal of a positive number. -/
def shortest (tie : TieRule) (mantissa : Nat) (exponent : Int) : Decimal :=
  let (up, down) := powerRatio 2 exponent
  let whole := mantissa * up
  -- The number of digits before the point, from the two lengths and one comparison.
  let guess : Int := (Nat.toDigits 10 whole).length - (Nat.toDigits 10 down).length
  let (tenUp, tenDown) := powerRatio 10 guess
  let places : Int := if whole * tenDown < down * tenUp then guess else guess + 1
  let found := (List.range 17).findSome? fun (count : Nat) =>
    let power : Int := places - (count + 1 : Nat)
    (candidate? tie mantissa exponent power).map fun digits => (digits, power)
  let (digits, power) := found.getD (whole, 0)
  let text := Nat.toDigits 10 digits
  let kept := (text.reverse.dropWhile (· == '0')).reverse
  ⟨kept, power + (text.length - kept.length : Nat)⟩

/-- The shortest decimal of a number without its sign; zero has one digit. -/
def decimal (tie : TieRule) (mantissa : Nat) (exponent : Int) : Decimal :=
  if mantissa = 0 then ⟨['0'], 0⟩ else shortest tie mantissa exponent

end Binary64

namespace Decimal

/-- How many digits stand before the point, negative for zeros after it. -/
def point (decimal : Decimal) : Int :=
  decimal.digits.length + decimal.exponent

/-- Digits with a point among or around them, and always one digit on each
side. -/
def positional (decimal : Decimal) : List Char :=
  let point := decimal.point
  if 0 ≤ decimal.exponent then
    decimal.digits ++ List.replicate decimal.exponent.toNat '0' ++ ['.', '0']
  else if 0 < point then
    decimal.digits.take point.toNat ++ '.' :: decimal.digits.drop point.toNat
  else
    '0' :: '.' :: (List.replicate (-point).toNat '0' ++ decimal.digits)

/-- One digit before the point, and the power of ten after the letter `e` with
its sign. -/
def scientific (decimal : Decimal) : List Char :=
  let power := decimal.point - 1
  let fraction := match decimal.digits.drop 1 with
    | [] => []
    | rest => '.' :: rest
  let sign := if power < 0 then '-' else '+'
  decimal.digits.take 1 ++ fraction ++ 'e' :: sign :: Nat.toDigits 10 power.natAbs

end Decimal

end IncludeGate
