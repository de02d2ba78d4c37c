/-!
# Blanks at the ends of a text

`Text.strip` removes what is blank at both ends of a text and leaves what stands between blanks
alone. What counts as blank is a parameter: values from the environment are stripped of Unicode
white space, lines of a stream of a few ASCII bytes.

## Main definitions

* `Text.strip`: the text without its blank ends.
* `Text.isWhite`: the characters with the Unicode property `White_Space`.
* `Text.lineFeed`: the byte that ends a line.
-/

namespace ListingSnapshot.Text

variable {α : Type}

/-! ### Blank ends -/

/-- The text without the blanks at its end. -/
def stripEnd (blank : α → Bool) (text : List α) : List α :=
  (text.reverse.dropWhile blank).reverse

/-- The text without the blanks at either end. -/
def strip (blank : α → Bool) (text : List α) : List α :=
  stripEnd blank (text.dropWhile blank)

/-! ### White space -/

/-- Whether a character has the property `White_Space`. -/
def isWhite (c : Char) : Bool :=
  [(0x9, 0xD), (0x20, 0x20), (0x85, 0x85), (0xA0, 0xA0), (0x1680, 0x1680), (0x2000, 0x200A),
    (0x2028, 0x2029), (0x202F, 0x202F), (0x205F, 0x205F), (0x3000, 0x3000)].any
    fun (low, high) => low ≤ c.toNat && c.toNat ≤ high

/-! ### Lines -/

/-- The byte that ends a line. -/
def lineFeed : UInt8 := 0x0A

end ListingSnapshot.Text
