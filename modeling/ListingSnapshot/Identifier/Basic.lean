import ListingSnapshot.Identifier.Segment
import ListingSnapshot.Text.Quoted

/-!
# Listing identifiers

A listing is addressed by three segments, written `network-contract-index`. A fourth segment pins
the identifier to the block at which a snapshot of the listing was taken:
`network-contract-index-block`.

## Main definitions

* `Identifier`: three coordinates and, for a snapshot, the segment of its block.
* `Identifier.parse`, `Identifier.text`: reading and writing the string form.
* `Identifier.segmentsFrom`, `Identifier.ofSegments?`: the two steps of reading.
* `Identifier.live`: the identifier of a live listing with 64-bit coordinates.
* `Identifier.atBlock`, `Identifier.current`: the snapshot at a block, and the live listing.
* `Identifier.sameListing`: agreement of the three coordinates.
-/

namespace ListingSnapshot

/-- The address of a listing, or of a snapshot of it. -/
structure Identifier where
  network : Segment
  contract : Segment
  index : Segment
  snapshot? : Option Segment
deriving DecidableEq

namespace Identifier

/-! ### Writing -/

/-- The mark between two segments. -/
def separator : Char := '-'

/-- The characters of the string form. -/
def chars (id : Identifier) : List Char :=
  id.network.chars ++ separator :: id.contract.chars ++ separator :: id.index.chars ++
    match id.snapshot? with
    | none => []
    | some block => separator :: block.chars

/-- The string form: the segments in order with a dash between any two. -/
def text (id : Identifier) : String :=
  String.ofList id.chars

/-! ### Reading -/

/-- Why a string is no identifier. -/
inductive ParseError
  /-- The string does not have three or four pieces between dashes. -/
  | segmentCount (count : Nat)
  /-- The piece at this place, counted from zero, is not a nonempty run of decimal digits. -/
  | invalidSegment (position : Nat) (segment : String)
deriving DecidableEq

/-- The message for the user. -/
def ParseError.message : ParseError → String
  | .segmentCount count => "expected 3 or 4 segments, got " ++ toString count
  | .invalidSegment position segment =>
    "segment " ++ toString position ++ " is not a non-negative integer: " ++ Text.quoted segment

/-- The segment that a piece spells; `position` tells the error where the piece stands. -/
def segmentAt (position : Nat) (piece : List Char) : Except ParseError Segment :=
  match Segment.ofChars? piece with
  | some segment => .ok segment
  | none => .error (.invalidSegment position (String.ofList piece))

/-- The segments that pieces spell, piece after piece; `position` is the place of the first one. Of
several bad pieces the first is reported. -/
def segmentsFrom (position : Nat) : List (List Char) → Except ParseError (List Segment)
  | [] => return []
  | piece :: pieces => do
    let segment ← segmentAt position piece
    let segments ← segmentsFrom (position + 1) pieces
    return segment :: segments

/-- The identifier with these segments, if they are enough for one. -/
def ofSegments? : List Segment → Option Identifier
  | network :: contract :: index :: others => some ⟨network, contract, index, others.head?⟩
  | _ => none

/-- Reads the string form. The number of pieces is checked before any of them is looked at. -/
def parse (text : String) : Except ParseError Identifier :=
  let pieces := text.toList.splitOn separator
  if pieces.length ≠ 3 ∧ pieces.length ≠ 4 then .error (.segmentCount pieces.length)
  else do
    match ofSegments? (← segmentsFrom 0 pieces) with
    | some id => return id
    | none => .error (.segmentCount pieces.length)

theorem segmentsFrom_cons_eq_ok_iff {position : Nat} {piece : List Char}
    {pieces : List (List Char)} {segments : List Segment} :
    segmentsFrom position (piece :: pieces) = .ok segments ↔
      ∃ segment others, segmentAt position piece = .ok segment ∧
        segmentsFrom (position + 1) pieces = .ok others ∧ segments = segment :: others := by
  rw [segmentsFrom]
  cases segmentAt position piece with
  | error e => simp [bind, Except.bind]
  | ok segment =>
    cases segmentsFrom (position + 1) pieces with
    | error e => simp [bind, Except.bind]
    | ok others => simp [bind, Except.bind, pure, Except.pure, eq_comm]

section Parse

variable {text : String}

theorem parse_of_length (h : ¬((text.toList.splitOn separator).length = 3 ∨
    (text.toList.splitOn separator).length = 4)) :
    parse text = .error (.segmentCount (text.toList.splitOn separator).length) :=
  if_pos (not_or.mp h)

theorem parse_eq_bind (h : (text.toList.splitOn separator).length = 3 ∨
    (text.toList.splitOn separator).length = 4) :
    parse text = (do
      match ofSegments? (← segmentsFrom 0 (text.toList.splitOn separator)) with
      | some id => return id
      | none => .error (.segmentCount (text.toList.splitOn separator).length)) :=
  if_neg fun hn => h.elim hn.1 hn.2

variable (h : (text.toList.splitOn separator).length = 3 ∨
  (text.toList.splitOn separator).length = 4)

include h

theorem parse_of_segmentsFrom_error {e : ParseError}
    (hs : segmentsFrom 0 (text.toList.splitOn separator) = .error e) : parse text = .error e := by
  rw [parse_eq_bind h, hs]
  rfl

theorem parse_of_segmentsFrom {segments : List Segment} {id : Identifier}
    (hs : segmentsFrom 0 (text.toList.splitOn separator) = .ok segments)
    (hid : ofSegments? segments = some id) : parse text = .ok id := by
  rw [parse_eq_bind h, hs]
  simp only [bind, Except.bind, hid]
  rfl

end Parse

/-- The identifier that a string spells, if it spells one. -/
def parse? (text : String) : Option Identifier :=
  (parse text).toOption

/-! ### Live listings and snapshots -/

/-- The live listing with these coordinates. -/
def live (network contract index : UInt64) : Identifier :=
  ⟨.ofUInt64 network, .ofUInt64 contract, .ofUInt64 index, none⟩

/-- Whether the identifier is that of a snapshot. -/
def isHistorical (id : Identifier) : Bool :=
  id.snapshot?.isSome

/-- The block that a snapshot was taken at; `none` also if the segment is no block's height. -/
def snapshotBlock? (id : Identifier) : Option Block :=
  id.snapshot?.bind Segment.block?

/-- The live listing, whatever snapshot of it is addressed. -/
def current (id : Identifier) : Identifier :=
  { id with snapshot? := none }

/-- The snapshot of the listing at a block. -/
def atBlock (id : Identifier) (block : Block) : Identifier :=
  { id with snapshot? := some (.ofUInt64 block.height) }

/-- Whether two identifiers address the same listing: their coordinates are written alike. -/
def sameListing (a b : Identifier) : Bool :=
  a.network = b.network ∧ a.contract = b.contract ∧ a.index = b.index

end Identifier

end ListingSnapshot
