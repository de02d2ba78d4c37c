import ListingSnapshot.Json.Document
import ListingSnapshot.Log
import ListingSnapshot.Stream.Source
import ListingSnapshot.Wire.Listing
import ListingSnapshot.Wire.Report

/-!
# Records of a stream

A record is a line with something on it. Every record is replied to by a report, whether it is a
listing or not. If it is not, the report tells what is wrong with it, under the identifier text that
it gives in case it is JSON at all.

## Main definitions

* `Record`: the number of a line and what is on it.
* `Record.ofLine?`: the record on a line.
* `Source.records`: the records of a source.
* `Record.listing`: the listing that a record is, or what is wrong with it.
* `Record.givenId`: the identifier text that a record gives.
* `Record.report`: the report on a record.
* `Record.logEntry?`: what replying to a record leaves on record.
-/

namespace ListingSnapshot

/-- A line with something on it: its number, counted from one, and its bytes without the blanks at
both ends. -/
structure Record where
  line : Nat
  bytes : Bytes
deriving DecidableEq

namespace Record

/-! ### Records among lines -/

/-- Whether a byte is a blank at the end of a line. -/
def isBlank (b : UInt8) : Bool :=
  b = 0x09 || b = 0x0A || b = 0x0C || b = 0x0D || b = 0x20

/-- The record on a line, unless the line is blank. -/
def ofLine? (number : Nat) (line : Bytes) : Option Record :=
  let bytes := Text.strip isBlank line
  if bytes.isEmpty then none else some ⟨number, bytes⟩

/-- The records among lines, numbered from `first`. Blank lines are counted but are no records. -/
def ofLines (first : Nat) : List Bytes → List Record
  | [] => []
  | line :: lines => (ofLine? first line).toList ++ ofLines (first + 1) lines

/-! ### Replies -/

/-- The listing that the record is, or what is wrong with it. -/
def listing (record : Record) : Except Json.Diagnostic Listing :=
  Json.decode Listing.reader record.bytes

/-- The last member `id` of the record, if it is an object with one that is a string; the empty text
otherwise. -/
def givenId (record : Record) : String :=
  let id? := do
    let tree ← Json.document? record.bytes
    let id ← tree.member? "id"
    id.string?
  id?.getD ""

/-- The report on the record. -/
def report (policy : Policy) (record : Record) : Report :=
  match record.listing with
  | .ok listing => listing.resolve policy
  | .error e => .rejected record.givenId e.message

/-- What replying to the record leaves on record. -/
def logEntry? (policy : Policy) (record : Record) : Option Log.Entry :=
  match record.listing with
  | .ok listing => listing.logEntry? policy
  | .error e => some (.undecodable record.line e.message)

end Record

/-- The records of a source. -/
def Source.records (source : Source) : List Record :=
  Record.ofLines 1 source.lines

/-- The bytes of a report. -/
def Report.bytes (report : Report) : Bytes :=
  Utf8.encode report.toJson.print

end ListingSnapshot
