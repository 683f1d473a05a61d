import Marginalia.Decimal.Basic

/-!
# Rounding

Numbers are kept to 53 binary digits: a decimal fraction becomes the nearest such
number, a tie going to the even one, and one that is too large for the format
becomes infinite. Written with one decimal place, it is this number that is
rounded, again to the nearest and from a tie to the even digit.
-/

namespace Marginalia

/-- The quotient rounded to the nearest natural number, a tie to the even one. -/
def roundHalfEven (numerator denominator : Nat) : Nat :=
  let quotient := numerator / denominator
  let twice := 2 * (numerator % denominator)
  if twice < denominator ∨ (twice = denominator ∧ quotient % 2 = 0) then quotient
  else quotient + 1

/-- The number `mantissa * 2 ^ exponent`. -/
structure Binary where
  mantissa : Nat
  exponent : Int
  deriving DecidableEq, Repr

namespace Binary

/-- The quotient by a power of two, whose exponent may be negative, rounded. -/
def scale (numerator denominator : Nat) (exponent : Int) : Nat :=
  if exponent < 0 then roundHalfEven (numerator * Nat.pow 2 exponent.natAbs) denominator
  else roundHalfEven numerator (denominator * Nat.pow 2 exponent.natAbs)

/-- The number of 53 binary digits nearest to a quotient, none if it is too
    large. Very small numbers have fewer digits. -/
def nearest? (numerator denominator : Nat) : Option Binary :=
  if numerator = 0 then some ⟨0, 0⟩
  else
    let size : Int := (Nat.log2 numerator : Int) - Nat.log2 denominator
    let reaches := if size < 0 then denominator ≤ numerator * Nat.pow 2 size.natAbs
      else denominator * Nat.pow 2 size.natAbs ≤ numerator
    let exponent := max (if reaches then size - 52 else size - 53) (-1074)
    let mantissa := scale numerator denominator exponent
    if 971 < exponent ∨ (exponent = 971 ∧ Nat.pow 2 53 ≤ mantissa) then none
    else some ⟨mantissa, exponent⟩

/-- The number in tenths, rounded. -/
def tenths (b : Binary) : Nat := scale (10 * b.mantissa) 1 (-b.exponent)

end Binary

namespace Decimal

/-- The number of digits before the point, negative for zeros after it. -/
def magnitude (d : Decimal) : Int := (Nat.toDigits 10 d.digits).length + d.exponent

/-- The nearest number of 53 binary digits without its sign, none if it is too
    large. -/
def nearest? (d : Decimal) : Option Binary :=
  if d.digits = 0 ∨ d.magnitude < -400 then some ⟨0, 0⟩
  else if 400 < d.magnitude then none
  else if d.exponent < 0 then Binary.nearest? d.digits (Nat.pow 10 d.exponent.natAbs)
  else Binary.nearest? (d.digits * Nat.pow 10 d.exponent.natAbs) 1

/-- The least natural number not below the number times a thousand, none if it is
    too large for the format. -/
def thousandths? (d : Decimal) : Option Nat :=
  if d.negative ∨ d.digits = 0 then some 0
  else if d.magnitude < -400 then some 1
  else if d.nearest? = none then none
  else
    let exponent := d.exponent + 3
    let power := Nat.pow 10 exponent.natAbs
    if exponent < 0 then some ((d.digits + power - 1) / power) else some (d.digits * power)

end Decimal

namespace Quantity

/-- Tenths written with one decimal place. -/
def ofTenths (tenths : Nat) : Text :=
  Text.ofNat (tenths / 10) ++ '.' :: Text.ofNat (tenths % 10)

/-- The writing of a number with one decimal place. -/
def text (q : Quantity) : Text :=
  match q with
  | undefined => "nan".toList
  | infinite negative => signOf negative ++ "inf".toList
  | finite d =>
    match d.nearest? with
    | none => signOf d.negative ++ "inf".toList
    | some b => signOf d.negative ++ ofTenths b.tenths
where
  /-- A minus before a number below zero. -/
  signOf (negative : Bool) : Text := if negative then ['-'] else []

/-- A number of seconds in whole milliseconds, none if that much time never
    passes. -/
def milliseconds? : Quantity → Option Nat
  | undefined => none
  | infinite negative => if negative then some 0 else none
  | finite d => d.thousandths?

end Quantity

end Marginalia
