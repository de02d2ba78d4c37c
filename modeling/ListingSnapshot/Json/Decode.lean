import ListingSnapshot.Json.Reader
import ListingSnapshot.Json.Lead

/-!
# Whole texts

A text is read as one value with nothing but blanks around it. A fault is shown to the user with
the line and column of its place in the text.

## Main definitions

* `Json.Reader.whole`: a value and nothing behind it.
* `Json.decode`: what a text is read as, or what is wrong with it.
-/

namespace ListingSnapshot.Json

variable {α : Type}

/-- A value with nothing but blanks behind it. -/
def Reader.whole (r : Reader α) : Reader α := do
  let a ← r
  match ← blanks with
  | none => return a
  | some _ => failNext (.malformed .trailingText)

/-- A fault in a text, as the user sees it. -/
def Fault.diagnostic (text : Bytes) (fault : Fault) : Diagnostic where
  cause := fault.cause
  position? := fault.place?.map fun place => place.position text

/-- What a text is read as, or what is wrong with it. -/
def decode (r : Reader α) (text : Bytes) : Except Diagnostic α :=
  match r.whole.run text with
  | .value a _ => .ok a
  | .fault fault _ => .error (fault.diagnostic text)

end ListingSnapshot.Json
