import ListingSnapshot.Decimal.Layout
import ListingSnapshot.Json.Tree
import ListingSnapshot.Text.Blank
import ListingSnapshot.Text.Quoted
import ListingSnapshot.Text.Utf8

/-!
# What can be wrong with a JSON text

A text that cannot be read ends too early, breaks the grammar, or holds something else than what is
asked for. This module names the causes, says what the user is told, and turns the place of a fault
into a line and a column.

## Main definitions

* `Json.Cause`: what is wrong, in three classes.
* `Json.Place`: where a reader stood, counted from the end of the text.
* `Json.Position`: a line and a column.
* `Json.Diagnostic`: a cause with its position, as the user sees it.
-/

namespace ListingSnapshot.Json

/-! ### Causes -/

/-- What a text may end in the middle of. -/
inductive Construct
  | list
  | object
  | string
  | value
deriving DecidableEq

/-- How a text breaks the grammar. -/
inductive Malformation
  /-- No colon after the name of a member. -/
  | colonExpected
  /-- Neither a comma nor the closing bracket after an item. -/
  | commaExpected (inside : Container)
  /-- A word that begins like `null`, `true` or `false` and goes on differently. -/
  | wordExpected
  /-- Nothing that begins a value. -/
  | valueExpected
  /-- An unknown escape in a string. -/
  | badEscape
  /-- A number that breaks off. -/
  | badNumber
  /-- A number beyond every floating-point number. -/
  | numberOutOfRange
  /-- A string whose bytes are not well-formed UTF-8. -/
  | illFormedText
  /-- A bare control character in a string. -/
  | bareControl
  /-- A member whose name is no string. -/
  | nameExpected
  /-- An escaped surrogate without its partner. -/
  | loneSurrogate
  /-- No second escape after an escaped leading surrogate. -/
  | surrogateCutOff
  /-- A comma right before a closing bracket. -/
  | danglingComma
  /-- More text where there should be none. -/
  | trailingText
  /-- Brackets nested too deeply. -/
  | nestedTooDeep
deriving DecidableEq

/-- What was found where something else was asked for. -/
inductive Found
  | null
  | bool (value : Bool)
  | natural (n : Nat)
  | negative (magnitude : Nat)
  | real (x : Float)
  | string (text : String)
  | list
  | object
deriving DecidableEq

/-- What was asked for. -/
inductive Expected
  | natural
  | string
  | bool
  | null
  | list
  | record (name : String)
deriving DecidableEq

/-- How a value differs from what was asked for. -/
inductive Mismatch
  /-- A value of another type. -/
  | wrongType (found : Found) (expected : Expected)
  /-- A value of the right type that is not admitted. -/
  | wrongValue (found : Found) (expected : Expected)
  /-- A record written as a list of too few items. -/
  | wrongLength (length : Nat) (record : String) (size : Nat)
  /-- A member that has to be there and is not. -/
  | missingField (name : String)
  /-- A second member of one name. -/
  | duplicateField (name : String)
  /-- A string that the type it is read into refuses for this reason. -/
  | refused (reason : String)
deriving DecidableEq

/-- Why a text cannot be read. -/
inductive Cause
  | truncated (inside : Construct)
  | malformed (how : Malformation)
  | unfit (how : Mismatch)
deriving DecidableEq

/-- The class of a cause. -/
inductive Category
  | eof
  | grammar
  | data
deriving DecidableEq

/-- The class of a cause. -/
def Cause.category : Cause → Category
  | truncated _ => .eof
  | malformed _ => .grammar
  | unfit _ => .data

/-! ### Messages -/

/-- What the message calls the construct. -/
def Construct.name : Construct → String
  | list => "a list"
  | object => "an object"
  | string => "a string"
  | value => "a value"

/-- What a text ends in the middle of when a bracket is not closed. -/
def Container.construct : Container → Construct
  | list => .list
  | object => .object

/-- The closing bracket. -/
def Container.closing : Container → Char
  | list => ']'
  | object => '\x7d'

/-- The opening bracket. -/
def Container.opening : Container → Char
  | list => '['
  | object => '\x7b'

/-- What the user is told of a broken grammar. -/
def Malformation.message : Malformation → String
  | colonExpected => "expected `:`"
  | commaExpected inside => "expected `,` or `" ++ String.singleton inside.closing ++ "`"
  | wordExpected => "expected ident"
  | valueExpected => "expected value"
  | badEscape => "invalid escape"
  | badNumber => "invalid number"
  | numberOutOfRange => "number out of range"
  | illFormedText => "invalid unicode code point"
  | bareControl => "control character (\\u0000-\\u001F) found while parsing a string"
  | nameExpected => "key must be a string"
  | loneSurrogate => "lone leading surrogate in hex escape"
  | surrogateCutOff => "unexpected end of hex escape"
  | danglingComma => "trailing comma"
  | trailingText => "trailing characters"
  | nestedTooDeep => "recursion limit exceeded"

/-- Numbers in messages have a point from the fifth decimal place to the sixteenth digit before
it. -/
def numberLayout : Decimal.Layout := ⟨-5, 15⟩

/-- What the message calls the thing found. -/
def Found.description : Found → String
  | null => "null"
  | bool value => "boolean `" ++ (if value then "true" else "false") ++ "`"
  | natural n => "integer `" ++ toString n ++ "`"
  | negative magnitude => "integer `-" ++ toString magnitude ++ "`"
  | real x => "floating point `" ++ String.ofList (numberLayout.writeFloat x) ++ "`"
  | string text => "string " ++ Text.quoted text
  | list => "sequence"
  | object => "map"

/-- What the message calls the thing asked for. -/
def Expected.description : Expected → String
  | natural => "u64"
  | string => "a string"
  | bool => "a boolean"
  | null => "unit"
  | list => "a sequence"
  | record name => "struct " ++ name

/-- What the user is told of a value that does not fit. -/
def Mismatch.message : Mismatch → String
  | wrongType found expected =>
    "invalid type: " ++ found.description ++ ", expected " ++ expected.description
  | wrongValue found expected =>
    "invalid value: " ++ found.description ++ ", expected " ++ expected.description
  | wrongLength length record size =>
    "invalid length " ++ toString length ++ ", expected struct " ++ record ++ " with " ++
      toString size ++ " elements"
  | missingField name => "missing field `" ++ name ++ "`"
  | duplicateField name => "duplicate field `" ++ name ++ "`"
  | refused reason => reason

/-- What the user is told of a cause. -/
def Cause.message : Cause → String
  | truncated inside => "EOF while parsing " ++ inside.name
  | malformed how => how.message
  | unfit how => how.message

/-! ### Places -/

/-- A place in a text, found by a reader that sees only what it has not read: so many bytes before
the end of the text, and so many columns before that, on the same line. -/
structure Place where
  remaining : Nat
  back : Nat
deriving DecidableEq

/-- A line, counted from one, and the number of bytes of it that have been passed. -/
structure Position where
  line : Nat
  column : Nat
deriving DecidableEq

/-- The position of a place in a text. -/
def Place.position (text : Bytes) (place : Place) : Position :=
  let passed := text.take (text.length - place.remaining)
  { line := passed.count Text.lineFeed + 1
    column := (passed.reverse.takeWhile (· ≠ Text.lineFeed)).length - place.back }

/-- A cause as the user sees it: with the position, where there is one. -/
structure Diagnostic where
  cause : Cause
  position? : Option Position
deriving DecidableEq

/-- The message for the user. -/
def Diagnostic.message (d : Diagnostic) : String :=
  match d.position? with
  | none => d.cause.message
  | some position =>
    d.cause.message ++ " at line " ++ toString position.line ++ " column " ++
      toString position.column

end ListingSnapshot.Json
