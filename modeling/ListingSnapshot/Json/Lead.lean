import ListingSnapshot.Json.Reader

/-!
# What a value begins with

The first byte of a JSON value tells what kind of value it is. This module passes over blanks, looks
at that byte, and reads the three words of the language.

## Main definitions

* `Json.Lead`: the kinds of values, by their first byte.
* `Json.Reader.blanks`: the next byte that is no blank.
* `Json.Reader.lead`: the kind of the next value.
* `Json.Reader.word`: one of the words `null`, `true` and `false`.
-/

namespace ListingSnapshot.Json

/-- The byte of an ASCII character. -/
def byte (c : Char) : UInt8 := UInt8.ofNat c.toNat

/-- Whether a byte may stand between tokens. -/
def isBlank (b : UInt8) : Bool :=
  b = byte ' ' || b = byte '\n' || b = byte '\t' || b = byte '\r'

/-- What kind of value a byte begins. -/
inductive Lead
  | null
  | bool (value : Bool)
  | string
  | minus
  | digit
  | container (kind : Container)
  | other
deriving DecidableEq

/-- The kind of value that begins with this byte. -/
def Lead.ofByte (b : UInt8) : Lead :=
  if b = byte '"' then .string
  else if b = Json.byte Container.list.opening then .container .list
  else if b = Json.byte Container.object.opening then .container .object
  else if Numeral.isDigit b then .digit
  else if b = byte '-' then .minus
  else if b = byte 'n' then .null
  else if b = byte 't' then .bool true
  else if b = byte 'f' then .bool false
  else .other

namespace Reader

/-- Passes over blanks and looks at the byte behind them. -/
def blanks : Reader (Option UInt8) := do
  let _ ← passWhile isBlank
  peek?

/-- Takes the next byte, which has been looked at before. -/
def pass : Reader Unit := do
  let _ ← next?
  return

/-- Passes over blanks and tells what kind of value comes next. -/
def lead : Reader Lead := do
  match ← blanks with
  | none => failNext (.truncated .value)
  | some b => return Lead.ofByte b

/-- Takes the remaining letters of a word. -/
def letters : List Char → Reader Unit
  | [] => return
  | c :: cs => do
    match ← next? with
    | none => failHere (.truncated .value)
    | some b => if b = byte c then letters cs else failHere (.malformed .wordExpected)

/-- Takes a word of which the first letter has been looked at, given its other letters. -/
def word (others : List Char) : Reader Unit := do
  pass
  letters others

/-- Takes the word `null`. -/
def null : Reader Unit :=
  word ['u', 'l', 'l']

/-- Takes the word for a truth value. -/
def bool (value : Bool) : Reader Unit :=
  word (if value then ['r', 'u', 'e'] else ['a', 'l', 's', 'e'])

/-! ### Bytes taken -/

theorem takes_letters (c : Char) (cs : List Char) : (letters (c :: cs)).Takes fun _ => True := by
  refine Takes.bind takes_next? fun b hb => ?_
  cases b with
  | none => exact takes_failHere _
  | some b => exact (hb (by simp)).elim

theorem takes_word (c : Char) (cs : List Char) : (word (c :: cs)).Takes fun _ => True :=
  Takes.bind_right fun _ => takes_letters c cs

theorem takes_null : null.Takes fun _ => True :=
  takes_word _ _

theorem takes_bool (value : Bool) : (bool value).Takes fun _ => True := by
  cases value
  · exact takes_word _ _
  · exact takes_word _ _

end Reader

end ListingSnapshot.Json
