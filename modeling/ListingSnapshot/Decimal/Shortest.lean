/-!
# Shortest decimals

A binary floating-point number stands for all the reals that round to it. Among the decimals in
that interval this module finds the one on the coarsest grid of multiples of a power of ten, and of
those the one nearest to the number itself.

## Main definitions

* `Decimal`: a natural number times a power of ten.
* `Binary`: a natural number times a power of two, with the distance to the number below it.
* `Binary.hit?`: the decimal on a given grid, if the interval meets the grid.
* `Binary.shortest`: the decimal on the coarsest grid that is met.
* `Binary.ofBits`: the magnitude of a 64-bit floating-point number.
-/

namespace ListingSnapshot

/-- The number `significand * 10 ^ exponent`. -/
structure Decimal where
  significand : Nat
  exponent : Int
deriving DecidableEq

/-- The number `mantissa * 2 ^ exponent` among the floating-point numbers. The next one above is
`2 ^ exponent` away, and so is the next one below unless `closeBelow` halves that distance. -/
structure Binary where
  mantissa : Nat
  exponent : Int
  closeBelow : Bool
deriving DecidableEq

namespace Binary

/-! ### The interval that rounds to a number

All three points are given in quarters of `2 ^ exponent`. -/

/-- The number itself. -/
def middle (b : Binary) : Nat := 4 * b.mantissa

/-- Half way to the number below. -/
def low (b : Binary) : Nat := 4 * b.mantissa - if b.closeBelow then 1 else 2

/-- Half way to the number above. -/
def high (b : Binary) : Nat := 4 * b.mantissa + 2

/-- Whether `point` lies in the interval, all points measured in `unit` steps to the quarter; the
ends belong to it when the mantissa is even, since a tie goes to the even mantissa. -/
def admits (b : Binary) (unit point : Nat) : Bool :=
  if b.mantissa % 2 = 0 then b.low * unit ≤ point && point ≤ b.high * unit
  else b.low * unit < point && point < b.high * unit

/-! ### Decimals in the interval -/

/-- The steps in a quarter of `2 ^ exponent`, on the scale that makes both these quarters and the
multiples of `10 ^ k` whole. -/
def unit (b : Binary) (k : Int) : Nat :=
  Nat.pow 2 (b.exponent - 2).toNat * Nat.pow 10 (-k).toNat

/-- The steps in `10 ^ k` on the same scale. -/
def spacing (b : Binary) (k : Int) : Nat :=
  Nat.pow 2 (2 - b.exponent).toNat * Nat.pow 10 k.toNat

/-- The multiple of `10 ^ k` in the interval that is nearest to the number, if there is one. Only
the two multiples on either side of the number can be it; a tie between them goes to the even
one. -/
def hit? (b : Binary) (k : Int) : Option Decimal :=
  let unit := b.unit k
  let spacing := b.spacing k
  let point := b.middle * unit
  let below := point / spacing
  let admitted (n : Nat) := b.admits unit (n * spacing)
  let aboveNearer :=
    let fromBelow := point - below * spacing
    let fromAbove := (below + 1) * spacing - point
    fromAbove < fromBelow || (fromAbove = fromBelow && below % 2 = 1)
  if admitted below && !(admitted (below + 1) && aboveNearer) then some ⟨below, k⟩
  else if admitted (below + 1) then some ⟨below + 1, k⟩
  else none

/-- The grids to be tried, the coarsest first. Every finite 64-bit number is below `10 ^ 309`, and
the interval of every one is wider than `10 ^ (-324)`. -/
def grids : List Int := (List.range 634).map fun (i : Nat) => (309 - i : Int)

/-- The decimal on the coarsest grid that the interval meets; zero if it meets none. -/
def shortest (b : Binary) : Decimal :=
  (grids.findSome? b.hit?).getD ⟨0, 0⟩

/-! ### Words of 64 bits -/

/-- The magnitude of the finite floating-point number with these bits. -/
def ofBits (bits : UInt64) : Binary :=
  -- The lowest 52 bits are the fraction, the next 11 the exponent.
  let fraction : Nat := bits.toNat % 0x10000000000000
  let exponent : Nat := bits.toNat / 0x10000000000000 % 0x800
  if exponent = 0 then ⟨fraction, -1074, false⟩
  else ⟨0x10000000000000 + fraction, (exponent : Int) - 1075, fraction = 0 && 1 < exponent⟩

end Binary

end ListingSnapshot
