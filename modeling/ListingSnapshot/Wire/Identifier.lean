import ListingSnapshot.Identifier.Basic
import ListingSnapshot.Json.Decode
import ListingSnapshot.Json.Printer
import ListingSnapshot.Json.Value

/-!
# Blocks and identifiers in JSON

A block is written as the number of its height and an identifier as its string form.

## Main definitions

* `Block.toJson`, `Block.reader`: blocks.
* `Identifier.toJson`, `Identifier.reader`: identifiers.
-/

namespace ListingSnapshot

open Json

/-! ### Blocks -/

/-- The height as a number. -/
def Block.toJson (block : Block) : Tree :=
  .ofNat block.height.toNat

/-- The block of a height. -/
def Block.reader : Reader Block := do
  return ⟨UInt64.ofNat (← Reader.natural)⟩

/-! ### Identifiers -/

/-- The string form. -/
def Identifier.toJson (id : Identifier) : Tree :=
  .string id.text

/-- The identifier that a string spells. A string that spells none is refused for its own reason,
which has no place in the text. -/
def Identifier.reader : Reader Identifier := do
  match Identifier.parse (← Reader.string) with
  | .ok id => return id
  | .error e => Reader.failUnplaced (.unfit (.refused e.message))

end ListingSnapshot
