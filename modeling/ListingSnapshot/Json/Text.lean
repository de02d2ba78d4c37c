import ListingSnapshot.Json.Lead

/-!
# Strings

The content of a string is read as bytes: those that stand for themselves, and those that an escape
stands for. Only when the closing quote has been reached are the bytes required to be well-formed
UTF-8. A string whose content is not wanted is passed over under weaker rules.

## Main definitions

* `Json.Reader.content`: the bytes of a string.
* `Json.Reader.text`: the string itself.
* `Json.Reader.passText`: passes over a string.
-/

namespace ListingSnapshot.Json

/-! ### Escapes -/

/-- The byte that a one-letter escape stands for. -/
def plainEscape? (letter : UInt8) : Option UInt8 :=
  [('"', 0x22), ('\\', 0x5C), ('/', 0x2F), ('b', 0x08), ('f', 0x0C), ('n', 0x0A), ('r', 0x0D),
    ('t', 0x09)].findSome? fun (c, meaning) => if letter = byte c then some meaning else none

/-- The value of a hexadecimal digit of either case. -/
def hexDigit? (b : UInt8) : Option Nat :=
  let code := b.toNat
  if 48 ≤ code ∧ code ≤ 57 then some (code - 48)
  else if 65 ≤ code ∧ code ≤ 70 then some (code - 55)
  else if 97 ≤ code ∧ code ≤ 102 then some (code - 87)
  else none

/-- The number that hexadecimal digits denote. -/
def hexValue? (ds : Bytes) : Option Nat :=
  ds.foldlM (fun n d => (hexDigit? d).map (16 * n + ·)) 0

/-- Whether a code unit is the first of a pair of surrogates. -/
def isLeading (unit : Nat) : Bool := 0xD800 ≤ unit && unit ≤ 0xDBFF

/-- Whether a code unit is the second of a pair of surrogates. -/
def isTrailing (unit : Nat) : Bool := 0xDC00 ≤ unit && unit ≤ 0xDFFF

/-- The code point of a pair of surrogates. -/
def pairValue (leading trailing : Nat) : Nat :=
  0x10000 + (leading - 0xD800) * 0x400 + (trailing - 0xDC00)

namespace Reader

/-- Takes the four digits of an escaped code unit. -/
def codeUnit : Reader Nat := do
  match ← exactly? 4 with
  | none => failHere (.truncated .string)
  | some ds =>
    match hexValue? ds with
    | none => failHere (.malformed .badEscape)
    | some n => return n

/-- Takes a byte of the escape that has to follow a leading surrogate. -/
def expectInPair (c : Char) : Reader Unit := do
  match ← next? with
  | none => failHere (.truncated .string)
  | some b => if b = byte c then return else failHere (.malformed .surrogateCutOff)

/-- The encoding of an escaped character, or of one escaped as a pair of surrogates; the first
backslash and the letter are already taken. -/
def unicodeEscape : Reader Bytes := do
  let unit ← codeUnit
  if isTrailing unit then
    failHere (.malformed .loneSurrogate)
  else if isLeading unit then
    expectInPair '\\'
    expectInPair 'u'
    let second ← codeUnit
    if isTrailing second then
      return String.utf8EncodeChar (Char.ofNat (pairValue unit second))
    else
      failHere (.malformed .loneSurrogate)
  else
    return String.utf8EncodeChar (Char.ofNat unit)

/-- The bytes that an escape stands for, its backslash already taken. -/
def escape : Reader Bytes := do
  match ← next? with
  | none => failHere (.truncated .string)
  | some b =>
    match plainEscape? b with
    | some meaning => return [meaning]
    | none => if b = byte 'u' then unicodeEscape else failHere (.malformed .badEscape)

/-! ### Strings that are wanted -/

/-- The next part of a string: the closing quote, after which the content is the bytes gathered
backwards so far, or more of the content. -/
def contentTurn (gathered : Bytes) : Reader (Turn Bytes Bytes) := do
  match ← next? with
  | none => failHere (.truncated .string)
  | some b =>
    if b = byte '"' then return .done gathered.reverse
    else if b = byte '\\' then return .again ((← escape).reverse ++ gathered)
    else if b < 0x20 then failHere (.malformed .bareControl)
    else return .again (b :: gathered)

theorem takes_contentTurn {p : Turn Bytes Bytes → Prop} (gathered : Bytes) :
    (contentTurn gathered).Takes p := by
  refine Takes.bind takes_next? fun b hb => ?_
  cases b with
  | none => exact takes_failHere _
  | some b => exact (hb (by simp)).elim

/-- The content of a string, its opening quote already taken. -/
def content : Reader Bytes :=
  iterate contentTurn takes_contentTurn []

/-- A string, its opening quote already taken. Content that is not well-formed is found only behind
the closing quote; the fault is placed as many columns before that as there are bytes from the
first one that does not fit. -/
def text : Reader String := do
  match Utf8.decodePrefix (← content) with
  | (cs, []) => return String.ofList cs
  | (_, tail) => failBack (.malformed .illFormedText) tail.length

theorem takes_content : content.Takes fun _ => True :=
  takes_iterate takes_contentTurn (takes_contentTurn [])

theorem takes_text : text.Takes fun _ => True :=
  takes_content.bind_left

/-! ### Strings that are passed over -/

/-- Passes over an escape, its backslash already taken. Surrogates may stand alone here. -/
def passEscape : Reader Unit := do
  match ← next? with
  | none => failHere (.truncated .string)
  | some b =>
    match plainEscape? b with
    | some _ => return
    | none =>
      if b = byte 'u' then
        let _ ← codeUnit
        return
      else failHere (.malformed .badEscape)

/-- The next part of a string that is passed over. A control is not taken before the reader stops
because of it. -/
def passTextTurn (_ : Unit) : Reader (Turn Unit Unit) := do
  let _ ← passWhile fun b => b ≠ byte '"' && b ≠ byte '\\' && ¬ b < 0x20
  match ← take? (· = byte '"') with
  | some _ => return .done ()
  | none =>
    match ← take? (· = byte '\\') with
    | some _ => do
      passEscape
      return .again ()
    | none =>
      match ← peek? with
      | none => failHere (.truncated .string)
      | some _ => failHere (.malformed .bareControl)

theorem takes_passTextTurn {p : Turn Unit Unit → Prop} (state : Unit) :
    (passTextTurn state).Takes p := by
  refine Takes.bind_right fun _ => Takes.bind (takes_take? _) fun b hb => ?_
  cases b with
  | some b => exact (hb (by simp)).elim
  | none =>
    refine Takes.bind (takes_take? _) fun b hb => ?_
    cases b with
    | some b => exact (hb (by simp)).elim
    | none =>
      refine Takes.bind_right fun b => ?_
      cases b with
      | none => exact takes_failHere _
      | some b => exact takes_failHere _

/-- Passes over a string, its opening quote already taken. Its content need not be well-formed. -/
def passText : Reader Unit :=
  iterate passTextTurn takes_passTextTurn ()

theorem takes_passText : passText.Takes fun _ => True :=
  takes_iterate takes_passTextTurn (takes_passTextTurn ())

end Reader

end ListingSnapshot.Json
