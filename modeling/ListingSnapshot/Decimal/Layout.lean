import ListingSnapshot.Decimal.Shortest

/-!
# How a decimal is laid out

The digits of a number are written with a point among or before them when its leading digit is
neither far above nor far below the ones, and with an exponent of ten otherwise.

## Main definitions

* `Decimal.Layout`: between which exponents the point is used.
* `Decimal.Layout.write`: the text of a decimal.
* `Decimal.Layout.writeFloat`: the text of a finite floating-point number, in the fewest digits.
-/

namespace ListingSnapshot.Decimal

/-- The exponents of the leading digit for which a number is written with a point. -/
structure Layout where
  lowest : Int
  highest : Int
deriving DecidableEq

/-- The digits of the significand. -/
def digits (d : Decimal) : List Char := Nat.toDigits 10 d.significand

/-- The exponent of the leading digit: the number is `d.ddd * 10 ^ leading`. -/
def leading (d : Decimal) : Int := d.exponent + d.digits.length - 1

namespace Layout

/-- Digits with a point behind the digit of the ones, and at least one digit on either side. -/
def pointed (digits : List Char) (leading : Int) : List Char :=
  if leading < 0 then
    ['0', '.'] ++ List.replicate (-leading - 1).toNat '0' ++ digits
  else
    let whole := leading.toNat + 1
    let fraction := digits.drop whole
    digits.take whole ++ List.replicate (whole - digits.length) '0' ++
      '.' :: if fraction.isEmpty then ['0'] else fraction

/-- One digit, the others behind a point, and the exponent with its sign. -/
def scientific (digits : List Char) (leading : Int) : List Char :=
  let fraction := digits.drop 1
  digits.take 1 ++ (if fraction.isEmpty then [] else '.' :: fraction) ++
    ['e', if leading < 0 then '-' else '+'] ++ Nat.toDigits 10 leading.natAbs

/-- The text of a decimal. -/
def write (layout : Layout) (d : Decimal) : List Char :=
  if layout.lowest ≤ d.leading ∧ d.leading ≤ layout.highest then pointed d.digits d.leading
  else scientific d.digits d.leading

/-- The text of a finite floating-point number, in the fewest digits that round to it. Zero has a
sign too. -/
def writeFloat (layout : Layout) (x : Float) : List Char :=
  let bits := x.toBits
  let sign := if bits.toNat / 0x8000000000000000 = 1 then ['-'] else []
  let magnitude := Binary.ofBits bits
  sign ++ layout.write (if magnitude.mantissa = 0 then ⟨0, 0⟩ else magnitude.shortest)

end Layout

end ListingSnapshot.Decimal
