import ListingSnapshot.Block
import ListingSnapshot.Numeral

/-!
# Segments of an identifier

A segment is a run of decimal digits, kept as it was written: leading zeros stay, and there is no
limit on its length. It denotes a number, which may or may not be the height of a block.

## Main definitions

* `Segment`: a nonempty run of decimal digits.
* `Segment.ofChars?`: the segment with the given characters.
* `Segment.ofUInt64`: the segment that writes a 64-bit number without leading zeros.
* `Segment.value`: the number denoted, of any size.
* `Segment.block?`: the block of that height, if there can be one.
-/

namespace ListingSnapshot

/-- A nonempty run of decimal digits. -/
structure Segment where
  chars : List Char
  ne_nil : chars ≠ []
  isDigit : ∀ c ∈ chars, c.isDigit = true
deriving DecidableEq

namespace Segment

/-! ### Reading and writing -/

/-- The digits as a string. -/
def text (s : Segment) : String :=
  String.ofList s.chars

/-- The segment with these characters, if they are digits and not none. -/
def ofChars? (cs : List Char) : Option Segment :=
  if h : cs ≠ [] ∧ cs.all Char.isDigit = true then some ⟨cs, h.1, List.all_eq_true.mp h.2⟩
  else none

theorem ofChars?_eq_some_iff {cs : List Char} {s : Segment} :
    ofChars? cs = some s ↔ s.chars = cs := by
  unfold ofChars?
  split
  · next h =>
    rw [Option.some.injEq]
    refine ⟨fun e => e ▸ rfl, fun e => ?_⟩
    cases s
    subst e
    rfl
  · next h =>
    refine ⟨fun e => by simp at e, fun e => (h ?_).elim⟩
    exact e ▸ ⟨s.ne_nil, List.all_eq_true.mpr s.isDigit⟩

@[simp] theorem ofChars?_chars (s : Segment) : ofChars? s.chars = some s :=
  ofChars?_eq_some_iff.2 rfl

/-- The segment that writes a number with no more digits than it takes. -/
def ofUInt64 (n : UInt64) : Segment where
  chars := Nat.toDigits 10 n.toNat
  ne_nil := Nat.toDigits_ne_nil
  isDigit _ h := Nat.isDigit_of_mem_toDigits (by decide) (by decide) h

/-! ### Values -/

/-- The values of the digits, the leading one first. -/
def figures (s : Segment) : List Nat :=
  s.chars.filterMap fun c => Numeral.digit? c.toNat

/-- The number that the segment denotes. -/
def value (s : Segment) : Nat :=
  Numeral.value s.figures

/-- The block whose height the segment denotes; `none` for a number that no height reaches. -/
def block? (s : Segment) : Option Block :=
  (Numeral.bounded? Block.limit s.figures).bind Block.ofNat?

end Segment

end ListingSnapshot
