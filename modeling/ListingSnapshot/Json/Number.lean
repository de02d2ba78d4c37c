import ListingSnapshot.Json.Lead

/-!
# Numbers

A number without point and exponent is an integer, as far as 64 bits go; all others are read as
floating-point numbers, and so are integers beyond 64 bits. The digits of a number are gathered into
a 64-bit significand for as long as they fit, and the power of ten that is left over is applied at
the end, in one or more floating-point operations. Each of these rounds, so the result can differ
from the floating-point number nearest to what is written.

## Main definitions

* `Json.Number`: what a number is read as.
* `Json.scale`: a significand times a power of ten.
* `Json.Reader.number`: a number without its minus sign.
-/

namespace ListingSnapshot.Json

/-- What a number is read as. -/
inductive Number
  | natural (n : Nat)
  | negative (magnitude : Nat)
  | real (x : Float)
deriving DecidableEq

/-- What is said of a number that is not asked for. -/
def Number.found : Number → Found
  | natural n => .natural n
  | negative magnitude => .negative magnitude
  | real x => .real x

/-- The greatest significand. -/
def significandLimit : Nat := UInt64.size - 1

/-- The greatest exponent that is read digit by digit. -/
def exponentLimit : Nat := 0x7FFFFFFF

/-! ### Values -/

/-- The floating-point number nearest to `10 ^ k`. -/
def tenTo (k : Nat) : Float :=
  Float.ofScientific 1 false k

/-- A significand times a power of ten; `none` if that is beyond every floating-point number. Powers
beyond `10 ^ 308` are none themselves, so a number that small is divided in several steps. -/
def scale (x : Float) (exponent : Int) : Option Float :=
  if exponent.natAbs ≤ 308 then
    if 0 ≤ exponent then
      let scaled := x * tenTo exponent.natAbs
      if scaled.isInf then none else some scaled
    else some (x / tenTo exponent.natAbs)
  else if x == 0 then some x
  else if 0 ≤ exponent then none
  else scale (x / tenTo 308) (exponent + 308)
termination_by exponent.natAbs

/-- The number of this sign and size. -/
def signed (minus : Bool) (x : Float) : Number :=
  .real (if minus then -x else x)

/-- The integer of this sign and size. What 64 bits do not hold with its sign is a floating-point
number, and so is zero with a minus sign. -/
def integer (minus : Bool) (n : Nat) : Number :=
  if minus then
    if n = 0 || 0x8000000000000000 < n then signed true (UInt64.ofNat n).toFloat else .negative n
  else .natural n

namespace Reader

/-! ### Reading -/

/-- Whether the next byte is a digit. -/
def digitAhead : Reader Bool := do
  return (← peek?).any Numeral.isDigit

/-- Takes all digits and counts them. -/
def digits : Reader Nat :=
  passWhile Numeral.isDigit

/-- The number that a significand and an exponent make up. -/
def scaled (minus : Bool) (significand : Nat) (exponent : Int) : Reader Number :=
  match scale (UInt64.ofNat significand).toFloat exponent with
  | none => failHere (.malformed .numberOutOfRange)
  | some x => return signed minus x

/-- What follows the letter of the exponent: a sign, if there is one, and digits. An exponent that
is too long to be read makes the number zero, or puts it out of range. -/
def exponent (minus : Bool) (significand : Nat) (before : Int) : Reader Number := do
  let sign ← take? fun b => b = byte '+' || b = byte '-'
  let down := sign = some (byte '-')
  match ← next? with
  | none => failHere (.truncated .value)
  | some b =>
    match Numeral.digit? b.toNat with
    | none => failHere (.malformed .badNumber)
    | some d =>
      let (n, _) ← gather exponentLimit d
      if ← digitAhead then
        pass
        if significand ≠ 0 && !down then
          failHere (.malformed .numberOutOfRange)
        else
          let _ ← digits
          return signed minus 0
      else
        scaled minus significand (if down then before - n else before + n)

/-- What may follow the digits of a number that is not an integer: an exponent, if there is one. -/
def exponent? (minus : Bool) (significand : Nat) (before : Int) : Reader Number := do
  match ← take? fun b => b = byte 'e' || b = byte 'E' with
  | some _ => exponent minus significand before
  | none => scaled minus significand before

/-- What follows the point: digits, and perhaps an exponent. Digits for which the significand has
no room are passed over. -/
def fraction (minus : Bool) (significand : Nat) (before : Int) : Reader Number := do
  let (n, count) ← gather significandLimit significand
  if ← digitAhead then
    let _ ← digits
    exponent? minus n (before - count)
  else if count = 0 then
    match ← peek? with
    | none => failNext (.truncated .value)
    | some _ => failNext (.malformed .badNumber)
  else
    exponent? minus n (before - count)

/-- What may follow the digits before the point. Digits for which the significand has no room count
as a power of ten, and then the number is no integer whatever follows. -/
def afterInteger (minus : Bool) (significand : Nat) : Reader Number := do
  let more ← digits
  match ← take? fun b => b = byte '.' || b = byte 'e' || b = byte 'E' with
  | some b =>
    if b = byte '.' then fraction minus significand more else exponent minus significand more
  | none => if more = 0 then return integer minus significand else scaled minus significand more

/-- A number, its minus sign already taken if it has one. -/
def number (minus : Bool) : Reader Number := do
  match ← next? with
  | none => failHere (.truncated .value)
  | some b =>
    match Numeral.digit? b.toNat with
    | none => failHere (.malformed .badNumber)
    | some 0 =>
      if ← digitAhead then failNext (.malformed .badNumber) else afterInteger minus 0
    | some d =>
      let (n, _) ← gather significandLimit d
      afterInteger minus n

theorem takes_number (minus : Bool) : (number minus).Takes fun _ => True := by
  refine Takes.bind takes_next? fun b hb => ?_
  cases b with
  | none => exact takes_failHere _
  | some b => exact (hb (by simp)).elim

end Reader

end ListingSnapshot.Json
